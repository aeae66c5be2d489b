import Cutscene.Proofs.Stage.Suspension

namespace Cutscene

/-- What happens to an instruction: it is carried out, and sooner or later it is completed. -/
inductive Mark where
  | dispatched (index : Nat)
  | completed (index : Nat)
  deriving DecidableEq, Repr

namespace Mark

def index : Mark → Nat
  | .dispatched index | .completed index => index

def dispatched? : Mark → Option Nat
  | .dispatched index => some index
  | .completed _ => none

def completed? : Mark → Option Nat
  | .dispatched _ => none
  | .completed index => some index

/-- The next `n` instructions from `k` on, each of them carried out and completed. -/
def rounds (k n : Nat) : List Mark :=
  (List.range' k n).flatMap fun index => [.dispatched index, .completed index]

theorem rounds_succ (k n : Nat) :
    rounds k (n + 1) = rounds k n ++ [.dispatched (k + n), .completed (k + n)] := by
  rw [rounds, List.range'_1_concat, List.flatMap_append, List.flatMap_singleton]
  rfl

theorem dispatched_rounds (k n : Nat) : (rounds k n).filterMap dispatched? = List.range' k n := by
  induction n with
  | zero => rfl
  | succ n ih =>
      rw [rounds_succ, List.filterMap_append, ih, List.range'_1_concat]
      rfl

theorem completed_rounds (k n : Nat) : (rounds k n).filterMap completed? = List.range' k n := by
  induction n with
  | zero => rfl
  | succ n ih =>
      rw [rounds_succ, List.filterMap_append, ih, List.range'_1_concat]
      rfl

theorem index_of_mem_rounds {k n : Nat} {m : Mark} (h : m ∈ rounds k n) :
    k ≤ m.index ∧ m.index < k + n := by
  obtain ⟨index, hindex, hm⟩ := List.mem_flatMap.mp h
  have hrange := List.mem_range'_1.mp hindex
  rcases List.mem_cons.mp hm with rfl | hm
  · exact hrange
  · rw [List.mem_singleton.mp hm]
    exact hrange

end Mark

def Call.begins {σ τ : Type} : Call σ τ → Bool
  | .start .. | .startFile .. => true
  | _ => false

def Suspension.after (elapsed : Duration) : Suspension → Suspension
  | .wait countdown => .wait (countdown.tick elapsed)
  | p => p

namespace Interpreter

variable {σ τ : Type} {host : Host σ} {elapsed : Duration} {s : Interpreter σ τ}

def stepMarks (host : Host σ) (elapsed : Duration) (s : Interpreter σ τ) : List Mark :=
  match s.session.pending with
  | some p =>
      match (s.poll host elapsed p).2 with
      | .ok true => [.completed s.session.index]
      | _ => []
  | none =>
      match s.session.current? with
      | none => []
      | some i =>
          match (s.carryOut host i).2 with
          | .ok .done => [.dispatched s.session.index, .completed s.session.index]
          | _ => [.dispatched s.session.index]

def marks (host : Host σ) (s : Interpreter σ τ) : Call σ τ → List Mark
  | .update elapsed =>
      if s.session.active then
        (if (s.animate host elapsed).2.meet s.session.pending then [.completed s.session.index]
          else []) ++
          (s.settle host elapsed).stepMarks host elapsed
      else []
  | .push button =>
      if s.session.active && s.session.pending.any (·.releasedBy button) then
        [.completed s.session.index]
      else []
  | _ => []

def run (host : Host σ) (s : Interpreter σ τ) (calls : List (Call σ τ)) : Interpreter σ τ :=
  calls.foldl (answer host) s

/-- What a sequence of calls does to the instructions of the script. -/
def trace (host : Host σ) (s : Interpreter σ τ) : List (Call σ τ) → List Mark
  | [] => []
  | call :: calls => s.marks host call ++ (s.answer host call).trace host calls

/-- All that can become of a session in half a frame, or in a push of a button. -/
inductive Move : Session → List Mark → Session → Prop
  | stay {s : Session} : Move s [] s
  | wait {s : Session} {p : Suspension} (h : s.pending.isSome = true) :
      Move s [] { s with pending := some p }
  | stop {s : Session} : Move s [] { s with active := false, pending := none }
  | complete {s : Session} (h : s.pending.isSome = true) :
      Move s [.completed s.index] { s with pending := none, index := s.index + 1 }
  | pass {s : Session} (hactive : s.active = true) (hpending : s.pending = none)
      (hindex : s.index < s.script.length) :
      Move s [.dispatched s.index, .completed s.index] { s with index := s.index + 1 }
  | suspend {s : Session} {p : Suspension} (hactive : s.active = true) (hpending : s.pending = none)
      (hindex : s.index < s.script.length) :
      Move s [.dispatched s.index] { s with pending := some p }
  | halt {s : Session} (hactive : s.active = true) (hpending : s.pending = none)
      (hindex : s.index < s.script.length) :
      Move s [.dispatched s.index] { s with active := false, pending := none }

theorem session_complete {p : Suspension} (h : s.session.pending = some p) :
    s.complete.session =
      { s.session with pending := none, index := s.session.index + 1 } := by
  rw [complete, h]

theorem session_poll (host : Host σ) (elapsed : Duration) {p : Suspension}
    (h : s.session.pending = some p) :
    (s.poll host elapsed p).1.session = { s.session with pending := some (p.after elapsed) } := by
  have hsame : { s.session with pending := some p } = s.session := by rw [← h]
  cases p with
  | wait countdown => rfl
  | button | anyButton | drawingPosition | cameraPosition => exact hsame.symm
  | custom =>
      rw [poll]
      cases hi : s.session.current? with
      | none => exact hsame.symm
      | some i =>
          have hframe :=
            callHandler_frame host (fun handler => handler.update i.command.name i elapsed) s
          exact hframe.1.trans hsame.symm

theorem settle_of_not_meet (h : (s.animate host elapsed).2.meet s.session.pending = false) :
    s.settle host elapsed = (s.animate host elapsed).1 := by
  rw [settle, h]
  rfl

theorem settle_of_meet (h : (s.animate host elapsed).2.meet s.session.pending = true) :
    s.settle host elapsed = (s.animate host elapsed).1.complete := if_pos h

theorem move_settle :
    Move s.session
      (if (s.animate host elapsed).2.meet s.session.pending then [.completed s.session.index] else [])
      (s.settle host elapsed).session := by
  cases hmeet : (s.animate host elapsed).2.meet s.session.pending with
  | true =>
      rw [settle_of_meet hmeet]
      cases hpending : s.session.pending with
      | none =>
          rw [hpending] at hmeet
          cases hmeet
      | some p =>
          have hmoved : (s.animate host elapsed).1.session.pending = some p := hpending
          rw [session_complete hmoved]
          exact .complete (by rw [hpending]; rfl)
  | false =>
      rw [settle_of_not_meet hmeet]
      exact .stay

theorem lt_of_current? {session : Session} {i : Instruction} (h : session.current? = some i) :
    session.index < session.script.length := (List.getElem?_eq_some_iff.mp h).1

def conclude : Interpreter σ τ × Except Fault Unit → Interpreter σ τ
  | (s, .ok ()) => s
  | (s, .error _) => s.finish

theorem update_fst_of_active (h : s.session.active = true) :
    (s.update host elapsed).1 = conclude ((s.settle host elapsed).step host elapsed) := by
  rw [update_of_active h]
  generalize (s.settle host elapsed).step host elapsed = result
  obtain ⟨s', fault | _⟩ := result <;> rfl

theorem move_dispatch {i : Instruction} (hactive : s.session.active = true)
    (hpending : s.session.pending = none) (hi : s.session.current? = some i) :
    Move s.session
      (match (s.carryOut host i).2 with
        | .ok .done => [.dispatched s.session.index, .completed s.session.index]
        | _ => [.dispatched s.session.index])
      (conclude (s.dispatch host i)).session := by
  have hsession := (carryOut_frame host i s).1
  have hindex := lt_of_current? hi
  rw [Interpreter.dispatch]
  generalize s.carryOut host i = result at hsession
  obtain ⟨s', fault | flow⟩ := result
  · change Move _ _ { s'.session with active := false, pending := none }
    rw [hsession]
    exact .halt hactive hpending hindex
  · cases flow with
    | done =>
        change Move _ _ { s'.session with index := s'.session.index + 1 }
        rw [hsession]
        exact .pass hactive hpending hindex
    | suspend p =>
        change Move _ _ { s'.session with pending := some p }
        rw [hsession]
        exact .suspend hactive hpending hindex
    | finish =>
        change Move _ _ { s'.session with active := false, pending := none }
        rw [hsession]
        exact .halt hactive hpending hindex

theorem move_poll (host : Host σ) (elapsed : Duration) {p : Suspension}
    (hpending : s.session.pending = some p) :
    Move s.session
      (match (s.poll host elapsed p).2 with
        | .ok true => [.completed s.session.index]
        | _ => [])
      (match s.poll host elapsed p with
        | (s, .ok done) => if done then s.complete else s
        | (s, .error _) => s.finish).session := by
  have hsession := session_poll host elapsed hpending
  have hsome : s.session.pending.isSome = true := by
    rw [hpending]
    rfl
  generalize s.poll host elapsed p = result at hsession
  obtain ⟨s', fault | done⟩ := result
  · change Move _ _ { s'.session with active := false, pending := none }
    rw [hsession]
    exact .stop
  · cases done with
    | false =>
        change Move _ _ s'.session
        rw [hsession]
        exact .wait hsome
    | true =>
        change Move _ _ s'.complete.session
        have hpending' : s'.session.pending = some (p.after elapsed) := by rw [hsession]
        rw [session_complete hpending', hsession]
        exact .complete hsome

theorem move_step (hactive : s.session.active = true) :
    Move s.session (s.stepMarks host elapsed) (conclude (s.step host elapsed)).session := by
  rw [stepMarks, step]
  cases hpending : s.session.pending with
  | some p =>
      have hmove := move_poll host elapsed hpending
      simp only
      generalize s.poll host elapsed p = result at hmove ⊢
      obtain ⟨s', fault | done⟩ := result
      · exact hmove
      · exact hmove
  | none =>
      cases hi : s.session.current? with
      | none => exact .stop
      | some i => exact move_dispatch hactive hpending hi

/-- The whole of a call, but for the start of another script, is a move and perhaps another one. -/
theorem moves_answer (host : Host σ) (s : Interpreter σ τ) (call : Call σ τ)
    (h : call.begins = false) :
    ∃ first second mid, s.marks host call = first ++ second ∧ Move s.session first mid ∧
      Move mid second (s.answer host call).session := by
  cases call with
  | start | startFile => cases h
  | update elapsed =>
      rw [marks, answer]
      cases hactive : s.session.active with
      | true =>
          have hsettled : (s.settle host elapsed).session.active = true := active_settle.trans hactive
          rw [update_fst_of_active hactive]
          exact ⟨_, _, _, rfl, move_settle, move_step hsettled⟩
      | false =>
          rw [update_of_inactive hactive]
          exact ⟨[], [], _, rfl, .stay, .stay⟩
  | finish => exact ⟨[], [], _, rfl, .stay, .stop⟩
  | push button =>
      rw [marks, answer, push]
      by_cases hreleased : (s.session.active && s.session.pending.any (·.releasedBy button)) = true
      · rw [if_pos hreleased, if_pos hreleased]
        cases hpending : s.session.pending with
        | none =>
            rw [hpending, Option.any_none, Bool.and_false] at hreleased
            cases hreleased
        | some p =>
            rw [session_complete hpending]
            exact ⟨[], _, _, rfl, .stay, .complete (by rw [hpending]; rfl)⟩
      · rw [if_neg hreleased, if_neg hreleased]
        exact ⟨[], [], _, rfl, .stay, .stay⟩
  | draw | release | fire | outside => exact ⟨[], [], _, rfl, .stay, .stay⟩

/-- How far a script is that was started at the index `k`: the instructions from there up to the
present one are done with, in this order. The present one is pending if it has been carried out, or
else it has ended the script. -/
def Progress (k : Nat) (past : List Mark) (s : Session) : Prop :=
  ∃ n, s.index = k + n ∧ (n = 0 ∨ k + n ≤ s.script.length) ∧
    ((past = Mark.rounds k n ∧ s.pending = none) ∨
      (past = Mark.rounds k n ++ [.dispatched (k + n)] ∧ k + n < s.script.length ∧
        (s.pending.isSome = true ∨ s.active = false)))

theorem Progress.of_pending {k : Nat} {past : List Mark} {s : Session} (h : Progress k past s)
    (hsome : s.pending.isSome = true) :
    ∃ n, s.index = k + n ∧ k + n < s.script.length ∧
      past = Mark.rounds k n ++ [.dispatched (k + n)] := by
  obtain ⟨n, hindex, -, ⟨-, hnone⟩ | ⟨hpast, hlt, -⟩⟩ := h
  · rw [hnone] at hsome
    cases hsome
  · exact ⟨n, hindex, hlt, hpast⟩

theorem Progress.of_ready {k : Nat} {past : List Mark} {s : Session} (h : Progress k past s)
    (hactive : s.active = true) (hnone : s.pending = none) :
    ∃ n, s.index = k + n ∧ (n = 0 ∨ k + n ≤ s.script.length) ∧ past = Mark.rounds k n := by
  obtain ⟨n, hindex, hle, ⟨hpast, -⟩ | ⟨-, -, hsome | hended⟩⟩ := h
  · exact ⟨n, hindex, hle, hpast⟩
  · rw [hnone] at hsome
    cases hsome
  · rw [hactive] at hended
    cases hended

theorem Progress.move {k : Nat} {past marks : List Mark} {s s' : Session} (h : Progress k past s)
    (hmove : Move s marks s') : Progress k (past ++ marks) s' := by
  cases hmove with
  | stay => rwa [List.append_nil]
  | wait hsome =>
      obtain ⟨n, hindex, hlt, hpast⟩ := h.of_pending hsome
      exact ⟨n, hindex, .inr (Nat.le_of_lt hlt),
        .inr ⟨by rw [List.append_nil, hpast], hlt, .inl rfl⟩⟩
  | stop =>
      rw [List.append_nil]
      obtain ⟨n, hindex, hle, ⟨hpast, -⟩ | ⟨hpast, hlt, -⟩⟩ := h
      · exact ⟨n, hindex, hle, .inl ⟨hpast, rfl⟩⟩
      · exact ⟨n, hindex, hle, .inr ⟨hpast, hlt, .inr rfl⟩⟩
  | complete hsome =>
      obtain ⟨n, hindex, hlt, hpast⟩ := h.of_pending hsome
      refine ⟨n + 1, congrArg (· + 1) hindex, .inr hlt, .inl ⟨?_, rfl⟩⟩
      rw [hpast, hindex, Mark.rounds_succ, List.append_assoc]
      rfl
  | pass hactive hnone hlt =>
      obtain ⟨n, hindex, -, hpast⟩ := h.of_ready hactive hnone
      rw [hindex] at hlt
      refine ⟨n + 1, congrArg (· + 1) hindex, .inr hlt, .inl ⟨?_, hnone⟩⟩
      rw [hpast, hindex, Mark.rounds_succ]
  | suspend hactive hnone hlt =>
      obtain ⟨n, hindex, hle, hpast⟩ := h.of_ready hactive hnone
      rw [hindex] at hlt
      exact ⟨n, hindex, hle, .inr ⟨by rw [hpast, hindex], hlt, .inl rfl⟩⟩
  | halt hactive hnone hlt =>
      obtain ⟨n, hindex, hle, hpast⟩ := h.of_ready hactive hnone
      rw [hindex] at hlt
      exact ⟨n, hindex, hle, .inr ⟨by rw [hpast, hindex], hlt, .inr rfl⟩⟩

theorem Move.script {s s' : Session} {marks : List Mark} (h : Move s marks s') :
    s'.script = s.script := by
  cases h <;> rfl

theorem Move.index {s s' : Session} {marks : List Mark} (h : Move s marks s') :
    s'.index = s.index + (marks.filterMap Mark.completed?).length := by
  cases h <;> rfl

theorem script_answer (call : Call σ τ) (h : call.begins = false) :
    (s.answer host call).session.script = s.session.script := by
  obtain ⟨first, second, mid, -, hfirst, hsecond⟩ := moves_answer host s call h
  exact hsecond.script.trans hfirst.script

/-- No call moves the index but by completing an instruction. -/
theorem index_answer (call : Call σ τ) (h : call.begins = false) :
    (s.answer host call).session.index =
      s.session.index + ((s.marks host call).filterMap Mark.completed?).length := by
  obtain ⟨first, second, mid, hmarks, hfirst, hsecond⟩ := moves_answer host s call h
  rw [hmarks, List.filterMap_append, List.length_append, hsecond.index, hfirst.index, Nat.add_assoc]

theorem index_push (host : Host σ) (button : String) (s : Interpreter σ τ) :
    (s.push button).session.index = s.session.index ∨
      (s.push button).session.index = s.session.index + 1 := by
  have hindex : (s.push button).session.index = s.session.index +
      ((s.marks host (.push button)).filterMap Mark.completed?).length :=
    index_answer (.push button) rfl
  rw [hindex, marks]
  split
  · exact .inr rfl
  · exact .inl rfl

theorem Progress.answer {k : Nat} {past : List Mark} (h : Progress k past s.session)
    (call : Call σ τ) (hcall : call.begins = false) :
    Progress k (past ++ s.marks host call) (s.answer host call).session := by
  obtain ⟨first, second, mid, hmarks, hfirst, hsecond⟩ := moves_answer host s call hcall
  rw [hmarks, ← List.append_assoc]
  exact (h.move hfirst).move hsecond

theorem Progress.run {k : Nat} {past : List Mark} (h : Progress k past s.session)
    (calls : List (Call σ τ)) (hcalls : ∀ call ∈ calls, call.begins = false) :
    Progress k (past ++ s.trace host calls) (s.run host calls).session := by
  induction calls generalizing s past with
  | nil => rwa [trace, List.append_nil]
  | cons call calls ih =>
      obtain ⟨hcall, hcalls⟩ := List.forall_mem_cons.mp hcalls
      rw [trace, ← List.append_assoc]
      exact ih (h.answer call hcall) hcalls

theorem script_run (calls : List (Call σ τ)) (hcalls : ∀ call ∈ calls, call.begins = false) :
    (s.run host calls).session.script = s.session.script := by
  induction calls generalizing s with
  | nil => rfl
  | cons call calls ih =>
      obtain ⟨hcall, hcalls⟩ := List.forall_mem_cons.mp hcalls
      exact (ih hcalls).trans (script_answer call hcall)

theorem index_le_run (calls : List (Call σ τ)) (hcalls : ∀ call ∈ calls, call.begins = false) :
    s.session.index ≤ (s.run host calls).session.index := by
  induction calls generalizing s with
  | nil => exact Nat.le_refl _
  | cons call calls ih =>
      obtain ⟨hcall, hcalls⟩ := List.forall_mem_cons.mp hcalls
      have hanswer : s.session.index ≤ (s.answer host call).session.index := by
        rw [index_answer call hcall]
        exact Nat.le_add_right _ _
      exact Nat.le_trans hanswer (ih hcalls)

/-- Of what a whole run has done, the index and the order can be read off. -/
structure InOrder (k : Nat) (past : List Mark) (s : Session) : Prop where
  /-- One instruction after the other is carried out and completed; the last one need not be. -/
  rounds : ∃ n, past = Mark.rounds k n ∨ past = Mark.rounds k n ++ [.dispatched (k + n)]
  dispatched : ∃ n, past.filterMap Mark.dispatched? = List.range' k n
  index : s.index = k + (past.filterMap Mark.completed?).length
  index_le : s.index ≤ max k s.script.length
  /-- No index is moved on from but within the script, so that the next one is no greater than its
  length. -/
  completed_lt : ∀ m ∈ past, m.index < s.script.length

theorem Progress.inOrder {k : Nat} {past : List Mark} {s : Session} (h : Progress k past s) :
    InOrder k past s := by
  obtain ⟨n, hindex, hle, ⟨rfl, -⟩ | ⟨rfl, hlt, -⟩⟩ := h
  · refine ⟨⟨n, .inl rfl⟩, ⟨n, Mark.dispatched_rounds k n⟩, ?_, by omega, ?_⟩
    · rw [Mark.completed_rounds, List.length_range', hindex]
    · intro m hm
      have hbounds := Mark.index_of_mem_rounds hm
      omega
  · refine ⟨⟨n, .inr rfl⟩, ⟨n + 1, ?_⟩, ?_, by omega, ?_⟩
    · rw [List.filterMap_append, Mark.dispatched_rounds, List.range'_1_concat]
      rfl
    · rw [List.filterMap_append, Mark.completed_rounds, List.length_append, List.length_range',
        hindex]
      rfl
    · intro m hm
      rcases List.mem_append.mp hm with hm | hm
      · exact Nat.lt_trans (Mark.index_of_mem_rounds hm).2 hlt
      · rw [List.mem_singleton.mp hm]
        exact hlt

theorem step_of_ready {i : Instruction} (hpending : s.session.pending = none)
    (hi : s.session.current? = some i) : s.step host elapsed = s.dispatch host i := by
  rw [step, hpending]
  simp only [hi]

theorem dispatched_stepMarks (host : Host σ) (elapsed : Duration) (s : Interpreter σ τ) :
    (s.stepMarks host elapsed).filterMap Mark.dispatched? =
      if s.session.pending = none ∧ s.session.index < s.session.script.length then
        [s.session.index]
      else [] := by
  rw [stepMarks]
  cases hpending : s.session.pending with
  | some p =>
      rw [if_neg (fun h => Option.some_ne_none p h.1)]
      simp only
      split <;> rfl
  | none =>
      cases hi : s.session.current? with
      | none =>
          have hge := List.getElem?_eq_none_iff.mp hi
          rw [if_neg (fun h => Nat.not_lt.mpr hge h.2)]
          rfl
      | some i =>
          rw [if_pos ⟨rfl, lt_of_current? hi⟩]
          simp only
          split <;> rfl

theorem length_completed_stepMarks (host : Host σ) (elapsed : Duration) (s : Interpreter σ τ) :
    ((s.stepMarks host elapsed).filterMap Mark.completed?).length ≤ 1 := by
  rw [stepMarks]
  cases s.session.pending with
  | some p =>
      simp only
      split
      · exact Nat.le_refl 1
      · exact Nat.zero_le 1
  | none =>
      cases s.session.current? with
      | none => exact Nat.zero_le 1
      | some i =>
          simp only
          split
          · exact Nat.le_refl 1
          · exact Nat.zero_le 1

/-- What a frame does to the instructions of the script, and how it moves the index. -/
structure Paced (host : Host σ) (elapsed : Duration) (s : Interpreter σ τ) : Prop where
  /-- It carries out at most one instruction. -/
  length_dispatched : ((s.marks host (.update elapsed)).filterMap Mark.dispatched?).length ≤ 1
  /-- That is the one that the index is at, if nothing is pending. -/
  dispatched_of_ready : s.session.active = true → s.session.pending = none →
    s.session.index < s.session.script.length →
    (s.marks host (.update elapsed)).filterMap Mark.dispatched? = [s.session.index]
  /-- To carry it out is all that such a frame does after its first half. -/
  dispatched_iff : ∀ n, .dispatched n ∈ s.marks host (.update elapsed) ↔
    s.session.active = true ∧ (s.settle host elapsed).session.pending = none ∧
      (s.settle host elapsed).session.index = n ∧ ∃ i, s.session.script[n]? = some i ∧
        (s.update host elapsed).1 = conclude ((s.settle host elapsed).dispatch host i)
  le_index : s.session.index ≤ (s.update host elapsed).1.session.index
  index_le : (s.update host elapsed).1.session.index ≤ s.session.index + 2
  /-- Two instructions are completed only if the first of them has waited for a place. -/
  meets : (s.update host elapsed).1.session.index = s.session.index + 2 →
    (s.animate host elapsed).2.meet s.session.pending = true

theorem marks_update_of_active (h : s.session.active = true) :
    s.marks host (.update elapsed) =
      (if (s.animate host elapsed).2.meet s.session.pending then [.completed s.session.index]
          else []) ++
        (s.settle host elapsed).stepMarks host elapsed := if_pos h

theorem marks_update_of_inactive (h : s.session.active = false) :
    s.marks host (.update elapsed) = [] := by
  rw [marks, h]
  rfl

theorem dispatched_marks (host : Host σ) (elapsed : Duration) (s : Interpreter σ τ) :
    (s.marks host (.update elapsed)).filterMap Mark.dispatched? =
      if s.session.active = true ∧ (s.settle host elapsed).session.pending = none ∧
          (s.settle host elapsed).session.index < (s.settle host elapsed).session.script.length then
        [(s.settle host elapsed).session.index]
      else [] := by
  cases hactive : s.session.active with
  | false =>
      rw [marks_update_of_inactive hactive, if_neg (fun h => Bool.false_ne_true h.1)]
      rfl
  | true =>
      rw [marks_update_of_active hactive, List.filterMap_append, dispatched_stepMarks]
      simp only [true_and]
      split <;> rfl

theorem length_completed_marks (host : Host σ) (elapsed : Duration) (s : Interpreter σ τ) :
    ((s.marks host (.update elapsed)).filterMap Mark.completed?).length ≤
      if (s.animate host elapsed).2.meet s.session.pending then 2 else 1 := by
  cases hactive : s.session.active with
  | false =>
      rw [marks_update_of_inactive hactive]
      exact Nat.zero_le _
  | true =>
      have hstep := length_completed_stepMarks host elapsed (s.settle host elapsed)
      rw [marks_update_of_active hactive, List.filterMap_append, List.length_append]
      split
      · exact Nat.add_le_add_left hstep 1
      · rw [List.filterMap_nil, List.length_nil, Nat.zero_add]
        exact hstep

theorem dispatched_mem_iff {marks : List Mark} {n : Nat} :
    .dispatched n ∈ marks ↔ n ∈ marks.filterMap Mark.dispatched? := by
  rw [List.mem_filterMap]
  constructor
  · intro h
    exact ⟨_, h, rfl⟩
  · rintro ⟨m, hm, hn⟩
    cases m with
    | dispatched index =>
        cases hn
        exact hm
    | completed index => cases hn

theorem dispatched_mem_marks_iff (host : Host σ) (elapsed : Duration) (s : Interpreter σ τ)
    (n : Nat) :
    .dispatched n ∈ s.marks host (.update elapsed) ↔
      s.session.active = true ∧ (s.settle host elapsed).session.pending = none ∧
        (s.settle host elapsed).session.index = n ∧ ∃ i, s.session.script[n]? = some i ∧
          (s.update host elapsed).1 = conclude ((s.settle host elapsed).dispatch host i) := by
  have hscript : (s.settle host elapsed).session.script = s.session.script := move_settle.script
  rw [dispatched_mem_iff, dispatched_marks, ← hscript]
  constructor
  · intro hn
    split at hn
    · rename_i hready
      obtain ⟨hactive, hpending, hlt⟩ := hready
      obtain rfl := List.mem_singleton.mp hn
      have hi := List.getElem?_eq_getElem hlt
      refine ⟨hactive, hpending, rfl, _, hi, ?_⟩
      rw [update_fst_of_active hactive, step_of_ready hpending hi]
    · cases hn
  · rintro ⟨hactive, hpending, rfl, i, hi, -⟩
    rw [if_pos ⟨hactive, hpending, lt_of_current? hi⟩]
    exact List.mem_singleton_self _

theorem paced (host : Host σ) (elapsed : Duration) (s : Interpreter σ τ) :
    Paced host elapsed s := by
  have hindex : (s.update host elapsed).1.session.index = s.session.index +
      ((s.marks host (.update elapsed)).filterMap Mark.completed?).length :=
    index_answer (.update elapsed) rfl
  have hcompleted := length_completed_marks host elapsed s
  refine ⟨?_, ?_, dispatched_mem_marks_iff host elapsed s, ?_, ?_, ?_⟩
  · rw [dispatched_marks]
    split
    · exact Nat.le_refl 1
    · exact Nat.zero_le 1
  · intro hactive hpending hlt
    have hnot : (s.animate host elapsed).2.meet s.session.pending = false := by rw [hpending]; rfl
    rw [dispatched_marks, settle_of_not_meet hnot]
    exact if_pos ⟨hactive, hpending, hlt⟩
  · rw [hindex]
    exact Nat.le_add_right _ _
  · rw [hindex]
    split at hcompleted <;> omega
  · intro htwo
    split at hcompleted
    · assumption
    · omega

/-- From the start of a script on, until another one is started, the instructions are carried out
and completed in order and one at a time, and the index is the start index and the number of those
completed. The state in which the script is started, the index and what happens to it are
arbitrary. -/
theorem start_inOrder (host : Host σ) (s : Interpreter σ τ) (script : List Instruction)
    (handler : Option (Handler τ × τ)) (k : Nat) (calls : List (Call σ τ))
    (hcalls : ∀ call ∈ calls, call.begins = false) :
    let started := s.start script handler k
    let now := started.run host calls
    now.session.script = script ∧ InOrder k (started.trace host calls) now.session ∧
      (∀ elapsed, Paced host elapsed now) ∧
      (∀ button, (now.push button).session.index = now.session.index ∨
        (now.push button).session.index = now.session.index + 1) ∧
      (now.draw host).session.index = now.session.index := by
  have hstarted : Progress k [] (s.start script handler k).session :=
    ⟨0, rfl, .inl rfl, .inl ⟨rfl, rfl⟩⟩
  refine ⟨script_run calls hcalls, (hstarted.run calls hcalls).inOrder,
    fun elapsed => paced host elapsed _, fun button => index_push host button _, rfl⟩

/-- The input is blocked, and any button opens the gate; one that is pushed does, a frame before it
is asked for again. -/
def gate : List Instruction :=
  [{ command := .builtin .blockAllInputs }, { command := .builtin .waitForAnyButton }]

def gateCalls : List (Call Recording Unit) :=
  [.update ⟨0⟩, .draw, .update ⟨0⟩, .update ⟨0⟩, .push "A", .update ⟨0⟩]

theorem start_inOrder_gate :
    let fresh : Interpreter Recording Unit := { world := .start ["A"] Recording.defaultResolution }
    let started := fresh.start gate none 0
    (∀ call ∈ gateCalls, call.begins = false) ∧
      started.trace Recording.host gateCalls = Mark.rounds 0 2 ∧
      InOrder 0 (Mark.rounds 0 2) (started.run Recording.host gateCalls).session := by
  intro fresh started
  have hcalls : ∀ call ∈ gateCalls, call.begins = false := by
    simp only [gateCalls, List.forall_mem_cons]
    exact ⟨rfl, rfl, rfl, rfl, rfl, rfl, nofun⟩
  have htrace : started.trace Recording.host gateCalls = Mark.rounds 0 2 := by decide +kernel
  have horder := (start_inOrder Recording.host fresh gate none 0 gateCalls hcalls).2.1
  rw [htrace] at horder
  exact ⟨hcalls, htrace, horder⟩

end Interpreter

end Cutscene
