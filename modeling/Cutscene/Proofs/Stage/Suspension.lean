import Cutscene.Proofs.Named
import Cutscene.Proofs.Stage.Action
import Cutscene.Proofs.Stage.Calls
import Cutscene.Stage.Recording

namespace Cutscene

theorem Motion.advance_wait {dt : Float32} {m : Motion} (h : (m.advance dt).2 = false) :
    (m.advance dt).1.wait = m.wait := by
  rw [Motion.advance] at h ⊢
  by_cases harrived : (m.integrate dt).arrived = true
  · rw [if_pos harrived] at h
    cases h
  · rw [if_neg harrived]
    rfl

theorem Drawing.advance_wait {elapsed : Duration} {d : Drawing} (h : (d.advance elapsed).2 = false) :
    (d.advance elapsed).1.motion.wait = d.motion.wait := Motion.advance_wait h

namespace Interpreter

variable {σ τ : Type} {host : Host σ} {elapsed : Duration} {s : Interpreter σ τ}

/-- The instruction is one that suspends the script in this way, and whatever has to end the
suspension is still there. -/
def Awaits (s : Interpreter σ τ) (i : Instruction) : Suspension → Prop
  | .wait _ => i.command = .builtin .wait
  | .button button => i.command = .builtin .waitForButton ∧ i.strings[0]? = some button
  | .anyButton => i.command = .builtin .waitForAnyButton
  | .drawingPosition name =>
      i.command = .builtin .drawingWaitTillPosition ∧ i.strings[0]? = some name ∧
        ∃ d, s.drawings.get? name = some d ∧ d.motion.wait.isSome = true
  | .cameraPosition =>
      i.command = .builtin .cameraWaitTillPosition ∧ s.camera.wait.isSome = true
  | .custom => (∃ name, i.command = .custom name) ∧ s.handler.isSome = true

/-- A suspension belongs to a running script, and to the instruction that this is at. -/
def InStep (s : Interpreter σ τ) : Prop :=
  ∀ p, s.session.pending = some p →
    s.session.active = true ∧ ∃ i, s.session.current? = some i ∧ s.Awaits i p

theorem inStep_of_pending_eq_none (h : s.session.pending = none) : s.InStep := by
  intro p hp
  rw [h] at hp
  cases hp

theorem pending_complete (s : Interpreter σ τ) : s.complete.session.pending = none := by
  rw [complete]
  cases h : s.session.pending with
  | none => exact h
  | some p => rfl

theorem complete_frame (s : Interpreter σ τ) :
    s.complete.drawings = s.drawings ∧ s.complete.camera = s.camera ∧
      s.complete.handler = s.handler ∧ s.complete.session.active = s.session.active := by
  rw [complete]
  cases s.session.pending <;> exact ⟨rfl, rfl, rfl, rfl⟩

theorem Awaits.congr {s' : Interpreter σ τ} {i : Instruction} {p : Suspension} (h : s.Awaits i p)
    (hdrawings : s'.drawings = s.drawings) (hcamera : s'.camera = s.camera)
    (hhandler : s'.handler.isSome = s.handler.isSome) : s'.Awaits i p := by
  cases p with
  | wait | button | anyButton => exact h
  | drawingPosition name => rw [Awaits, hdrawings]; exact h
  | cameraPosition => rw [Awaits, hcamera]; exact h
  | custom => rw [Awaits, hhandler]; exact h

theorem InStep.congr {s' : Interpreter σ τ} (h : s.InStep) (hsession : s'.session = s.session)
    (hdrawings : s'.drawings = s.drawings) (hcamera : s'.camera = s.camera)
    (hhandler : s'.handler.isSome = s.handler.isSome) : s'.InStep := by
  intro p hp
  rw [hsession] at hp ⊢
  obtain ⟨hactive, i, hi, hawaits⟩ := h p hp
  exact ⟨hactive, i, hi, hawaits.congr hdrawings hcamera hhandler⟩

theorem get?_animate (name : String) :
    (s.animate host elapsed).1.drawings.get? name =
      (s.drawings.get? name).map fun d => (d.advance elapsed).1 := by
  rw [drawings_animate]
  exact Named.get?_map (fun d => (d.advance elapsed).1) name s.drawings

theorem contains_arrivals {name : String} {d : Drawing} (hd : s.drawings.get? name = some d)
    (harrived : (d.advance elapsed).2 = true) :
    (s.animate host elapsed).2.drawings.contains name = true := by
  rw [List.contains_iff_mem]
  simp only [animate_eq, List.mem_map, List.mem_filter]
  exact ⟨(name, d), ⟨Named.mem_of_get?_eq_some hd, harrived⟩, rfl⟩

theorem Awaits.animate {i : Instruction} {p : Suspension} (h : s.Awaits i p)
    (hmeet : (s.animate host elapsed).2.meet (some p) = false) :
    (s.animate host elapsed).1.Awaits i p := by
  cases p with
  | wait | button | anyButton | custom => exact h
  | drawingPosition name =>
      obtain ⟨hcommand, hname, d, hd, hwait⟩ := h
      have harrived : (d.advance elapsed).2 = false := by
        cases hupdate : (d.advance elapsed).2 with
        | false => rfl
        | true => exact absurd (contains_arrivals hd hupdate) (by simpa [Arrivals.meet] using hmeet)
      refine ⟨hcommand, hname, (d.advance elapsed).1, ?_, ?_⟩
      · rw [get?_animate, hd]
        rfl
      · rw [Drawing.advance_wait harrived]
        exact hwait
  | cameraPosition =>
      refine ⟨h.1, ?_⟩
      change (s.camera.advance elapsed.singleSeconds).1.wait.isSome = true
      rw [Motion.advance_wait hmeet]
      exact h.2

theorem InStep.settle (h : s.InStep) : (s.settle host elapsed).InStep := by
  rw [Interpreter.settle]
  by_cases hmeet : (s.animate host elapsed).2.meet s.session.pending = true
  · rw [if_pos hmeet]
    exact inStep_of_pending_eq_none (pending_complete _)
  · rw [if_neg hmeet]
    intro p hp
    obtain ⟨hactive, i, hi, hawaits⟩ := h p hp
    rw [show s.session.pending = some p from hp, Bool.not_eq_true] at hmeet
    exact ⟨hactive, i, hi, hawaits.animate hmeet⟩

theorem callHandler_frame (host : Host σ) (hook : Handler τ → τ → Answer τ)
    (s : Interpreter σ τ) :
    (s.callHandler host hook).1.session = s.session ∧
      (s.callHandler host hook).1.drawings = s.drawings ∧
      (s.callHandler host hook).1.camera = s.camera ∧
      (s.callHandler host hook).1.handler.isSome = s.handler.isSome := by
  rw [callHandler]
  cases h : s.handler with
  | none => exact ⟨rfl, rfl, rfl, by rw [h]⟩
  | some handler => exact ⟨rfl, rfl, rfl, rfl⟩

theorem isSome_handler_of_pending {hook : Handler τ → τ → Answer τ}
    (h : (s.callHandler host hook).2 = .pending) : s.handler.isSome = true := by
  rw [callHandler] at h
  cases hhandler : s.handler with
  | none => rw [hhandler] at h; cases h
  | some handler => rfl

/-- Looking again at a suspension cannot fail, since what it needs is there. -/
theorem InStep.poll (host : Host σ) (elapsed : Duration) (h : s.InStep) {p : Suspension}
    (hp : s.session.pending = some p) :
    (s.poll host elapsed p).1.InStep ∧ ∃ done, (s.poll host elapsed p).2 = .ok done := by
  obtain ⟨hactive, i, hi, hawaits⟩ := h p hp
  cases p with
  | wait countdown =>
      refine ⟨?_, _, rfl⟩
      intro p hp
      cases hp
      exact ⟨hactive, i, hi, hawaits⟩
  | button | anyButton | cameraPosition => exact ⟨h, _, rfl⟩
  | drawingPosition name =>
      obtain ⟨-, -, d, hd, -⟩ := hawaits
      have hhas : s.drawings.has name = true := by
        rw [Named.has_eq_isSome, hd]
        rfl
      refine ⟨h, false, ?_⟩
      rw [Interpreter.poll, if_pos hhas]
  | custom =>
      rw [Interpreter.poll, hi]
      obtain ⟨hsession, hdrawings, hcamera, hhandler⟩ :=
        callHandler_frame host (fun handler => handler.update i.command.name i elapsed) s
      exact ⟨h.congr hsession hdrawings hcamera hhandler, _, rfl⟩

theorem changeDrawing_frame (name : String) (f : Drawing → Drawing) (flow : Flow)
    (s : Interpreter σ τ) :
    (s.changeDrawing name f flow).1.session = s.session ∧
      (s.changeDrawing name f flow).1.camera = s.camera ∧
      (s.changeDrawing name f flow).1.handler.isSome = s.handler.isSome := by
  rw [changeDrawing]
  split <;> exact ⟨rfl, rfl, rfl⟩

theorem perform_frame (host : Host σ) (i : Instruction) (s : Interpreter σ τ) (action : Action) :
    (s.perform host i action).1.session = s.session ∧
      (s.perform host i action).1.camera = action.steer s.camera ∧
      (s.perform host i action).1.handler.isSome = s.handler.isSome := by
  cases action with
  | skip | finish | suspend | tell | moveCamera | awaitCamera | forceResizeResolution =>
      exact ⟨rfl, rfl, rfl⟩
  | attempt | press | awaitButton | unload | fullscreen =>
      simp only [perform]
      split <;> exact ⟨rfl, rfl, rfl⟩
  | load name picture persistent =>
      cases picture with
      | image path =>
          simp only [perform, load]
          split <;> exact ⟨rfl, rfl, rfl⟩
      | solid color size => exact ⟨rfl, rfl, rfl⟩
  | change | awaitDrawing | maximize => exact changeDrawing_frame _ _ _ s
  | spriteGroup name group =>
      simp only [perform, changeGroup]
      split <;> exact ⟨rfl, rfl, rfl⟩
  | signal group =>
      simp only [perform, sendSignal]
      cases hhandler : s.handler with
      | none => exact ⟨rfl, rfl, congrArg Option.isSome hhandler⟩
      | some handler => exact ⟨rfl, rfl, rfl⟩

/-- An instruction that suspends the script leaves behind what the suspension needs. -/
theorem awaits_perform {i : Instruction} {opcode : Opcode} {action : Action} {p : Suspension}
    (hcommand : i.command = .builtin opcode) (hfrom : action.ComesFrom i opcode)
    (hflow : (s.perform host i action).2 = .ok (.suspend p)) :
    (s.perform host i action).1.Awaits i p := by
  cases action with
  | suspend suspension =>
      cases hflow
      obtain ⟨rfl, countdown, rfl⟩ | ⟨rfl, rfl⟩ := hfrom
      · exact hcommand
      · exact hcommand
  | awaitButton button =>
      obtain ⟨rfl, hname⟩ := hfrom
      simp only [perform] at hflow ⊢
      split at hflow
      · cases hflow
        exact ⟨hcommand, hname⟩
      · cases hflow
  | awaitDrawing name target =>
      obtain ⟨rfl, hname⟩ := hfrom
      simp only [perform, changeDrawing] at hflow ⊢
      split at hflow
      · rename_i hhas
        cases hflow
        rw [if_pos hhas]
        obtain ⟨d, hd⟩ := Option.isSome_iff_exists.mp hhas
        refine ⟨hcommand, hname, d.waitFor target, ?_, rfl⟩
        change Named.get? name (Named.modify name (Drawing.waitFor target) s.drawings) = _
        rw [Named.get?_modify, if_pos rfl, hd]
        rfl
      · cases hflow
  | awaitCamera target =>
      obtain rfl := hfrom
      cases hflow
      exact ⟨hcommand, rfl⟩
  | skip | finish | tell | moveCamera | forceResizeResolution | fullscreen | signal => cases hflow
  | attempt | press | unload =>
      simp only [perform] at hflow
      split at hflow <;> cases hflow
  | load name picture persistent =>
      cases picture with
      | image path =>
          simp only [perform, load] at hflow
          split at hflow <;> cases hflow
      | solid color size => cases hflow
  | change | maximize =>
      simp only [perform, changeDrawing] at hflow
      split at hflow <;> cases hflow
  | spriteGroup name group =>
      simp only [perform, changeGroup] at hflow
      split at hflow <;> cases hflow

theorem carryOut_frame (host : Host σ) (i : Instruction) (s : Interpreter σ τ) :
    (s.carryOut host i).1.session = s.session ∧
      (s.carryOut host i).1.handler.isSome = s.handler.isSome := by
  rw [carryOut]
  cases i.command with
  | custom name =>
      obtain ⟨hsession, -, -, hhandler⟩ :=
        callHandler_frame host (fun handler => handler.interpret name i) s
      simp only
      generalize s.callHandler host (fun handler => handler.interpret name i) = result
        at hsession hhandler
      obtain ⟨left, _ | _⟩ := result <;> exact ⟨hsession, hhandler⟩
  | builtin opcode =>
      simp only
      split
      · exact ⟨rfl, rfl⟩
      · obtain ⟨hsession, -, hhandler⟩ := perform_frame host i s _
        exact ⟨hsession, hhandler⟩

theorem awaits_carryOut {i : Instruction} {p : Suspension}
    (hflow : (s.carryOut host i).2 = .ok (.suspend p)) : (s.carryOut host i).1.Awaits i p := by
  rw [carryOut] at hflow ⊢
  cases hcommand : i.command with
  | custom name =>
      rw [hcommand] at hflow
      have hframe := callHandler_frame host (fun handler => handler.interpret name i) s
      simp only at hflow ⊢
      split at hflow
      · cases hflow
      · rename_i s' hcall
        cases hflow
        have hpending := congrArg Prod.snd hcall
        have hhandler := hframe.2.2.2
        rw [isSome_handler_of_pending hpending, hcall] at hhandler
        exact ⟨⟨name, hcommand⟩, hhandler⟩
  | builtin opcode =>
      rw [hcommand] at hflow
      simp only at hflow ⊢
      cases haction : Action.ofInstruction i opcode with
      | error parameter =>
          rw [haction] at hflow
          cases hflow
      | ok action =>
          rw [haction] at hflow
          exact awaits_perform hcommand (Action.ofInstruction_comesFrom haction) hflow

theorem InStep.dispatch {i : Instruction} (hactive : s.session.active = true)
    (hpending : s.session.pending = none) (hi : s.session.current? = some i)
    (hok : (s.dispatch host i).2 = .ok ()) : (s.dispatch host i).1.InStep := by
  have hsession := (carryOut_frame host i s).1
  have hawaits (p : Suspension) := @awaits_carryOut σ τ host s i p
  rw [Interpreter.dispatch] at hok ⊢
  generalize s.carryOut host i = result at hsession hawaits hok ⊢
  obtain ⟨s', flow | flow⟩ := result
  · cases hok
  · simp only at hsession hawaits ⊢
    cases flow with
    | done =>
        apply inStep_of_pending_eq_none
        change s'.session.pending = none
        rw [hsession]
        exact hpending
    | finish => exact inStep_of_pending_eq_none rfl
    | suspend p =>
        intro q hq
        cases hq
        refine ⟨?_, i, ?_, hawaits p rfl⟩
        · change s'.session.active = true
          rw [hsession]
          exact hactive
        · change s'.session.current? = some i
          rw [hsession]
          exact hi

theorem InStep.step (host : Host σ) (elapsed : Duration) (h : s.InStep)
    (hactive : s.session.active = true) (hok : (s.step host elapsed).2 = .ok ()) :
    (s.step host elapsed).1.InStep := by
  rw [Interpreter.step] at hok ⊢
  cases hpending : s.session.pending with
  | some p =>
      have hpoll := (h.poll host elapsed hpending).1
      rw [hpending] at hok
      simp only at hok ⊢
      generalize s.poll host elapsed p = result at hpoll hok ⊢
      obtain ⟨s', fault | done⟩ := result
      · cases hok
      · cases done with
        | false => exact hpoll
        | true => exact inStep_of_pending_eq_none (pending_complete s')
  | none =>
      rw [hpending] at hok
      simp only at hok ⊢
      cases hi : s.session.current? with
      | none => exact inStep_of_pending_eq_none rfl
      | some i =>
          rw [hi] at hok
          exact InStep.dispatch hactive hpending hi hok

theorem active_settle : (s.settle host elapsed).session.active = s.session.active := by
  rw [Interpreter.settle]
  split
  · exact (complete_frame _).2.2.2
  · rfl

theorem InStep.update (h : s.InStep) : (s.update host elapsed).1.InStep := by
  cases hactive : s.session.active with
  | false =>
      rw [update_of_inactive hactive]
      intro p hp
      have hrunning := (h p hp).1
      rw [hactive] at hrunning
      cases hrunning
  | true =>
      rw [update_of_active hactive]
      have hsettled : (s.settle host elapsed).session.active = true := by
        rw [active_settle]
        exact hactive
      have hstep := h.settle.step host elapsed hsettled
      generalize (s.settle host elapsed).step host elapsed = result at hstep ⊢
      obtain ⟨s', fault | _⟩ := result
      · exact inStep_of_pending_eq_none rfl
      · exact hstep rfl

theorem InStep.answer (h : s.InStep) (call : Call σ τ) : (s.answer host call).InStep := by
  cases call with
  | start script handler index => exact inStep_of_pending_eq_none rfl
  | startFile bytes handler index =>
      rw [Interpreter.answer, startFile]
      cases Script.ofBytes bytes with
      | ok script => exact inStep_of_pending_eq_none rfl
      | error cause => exact h
  | update elapsed => exact h.update
  | draw => exact h.congr rfl rfl rfl rfl
  | finish => exact inStep_of_pending_eq_none rfl
  | push button =>
      rw [Interpreter.answer, push]
      split
      · exact inStep_of_pending_eq_none (pending_complete s)
      · exact h
  | release button | fire button => exact h
  | outside world state => exact h.congr rfl rfl rfl Option.isSome_map

theorem Reachable.inStep (h : Reachable host s) : s.InStep := by
  induction h with
  | fresh world => exact inStep_of_pending_eq_none rfl
  | answer _ call ih => exact ih.answer call

theorem InStep.index_lt (h : s.InStep) {p : Suspension} (hp : s.session.pending = some p) :
    s.session.index < s.session.script.length := by
  obtain ⟨-, i, hi, -⟩ := h p hp
  exact (List.getElem?_eq_some_iff.mp hi).1

/-- A look at the suspension stays within the script, finds the handler and the drawing that it
needs, and does not fail. -/
structure PollsSafely (host : Host σ) (elapsed : Duration) (s : Interpreter σ τ) (p : Suspension) :
    Prop where
  index_lt : s.session.index < s.session.script.length
  handler : p = .custom → s.handler.isSome = true
  drawing : ∀ name, p = .drawingPosition name → s.drawings.has name = true
  poll_ok : ∃ done, (s.poll host elapsed p).2 = .ok done

theorem InStep.pollsSafely (h : s.InStep) {p : Suspension} (hp : s.session.pending = some p) :
    PollsSafely host elapsed s p := by
  obtain ⟨-, i, -, hawaits⟩ := h p hp
  refine ⟨h.index_lt hp, ?_, ?_, (h.poll host elapsed hp).2⟩
  · rintro rfl
    exact hawaits.2
  · rintro name rfl
    obtain ⟨-, -, d, hd, -⟩ := hawaits
    rw [Named.has_eq_isSome, hd]
    rfl

theorem PollsSafely.step_ok {p : Suspension} (h : PollsSafely host elapsed s p)
    (hp : s.session.pending = some p) : (s.step host elapsed).2 = .ok () := by
  obtain ⟨done, hdone⟩ := h.poll_ok
  rw [Interpreter.step, hp]
  simp only
  generalize s.poll host elapsed p = result at hdone ⊢
  obtain ⟨s', outcome⟩ := result
  cases hdone
  rfl

/-- Whatever an interpreter has been asked, a suspension is that of the instruction it is at, whose
end can still come about. A frame then looks at the suspension without a fault, and one without a
suspension carries out an instruction of the script, or ends after the last one. -/
theorem Reachable.suspension_matches (h : Reachable host s) :
    (∀ p, s.session.pending = some p →
      s.session.active = true ∧ s.session.index < s.session.script.length ∧
        ∃ i, s.session.script[s.session.index]? = some i ∧ s.Awaits i p) ∧
    ∀ elapsed, s.session.active = true →
      (∀ p, (s.settle host elapsed).session.pending = some p →
        PollsSafely host elapsed (s.settle host elapsed) p ∧ (s.update host elapsed).2 = none) ∧
      ((s.settle host elapsed).session.pending = none →
        ((s.settle host elapsed).session.index < s.session.script.length ∧
          ∃ i, s.session.script[(s.settle host elapsed).session.index]? = some i ∧
            (s.settle host elapsed).step host elapsed = (s.settle host elapsed).dispatch host i) ∨
        (s.session.script.length ≤ (s.settle host elapsed).session.index ∧
          (s.update host elapsed) = ((s.settle host elapsed).finish, none))) := by
  have hstep := h.inStep
  constructor
  · intro p hp
    obtain ⟨hactive, i, hi, hawaits⟩ := hstep p hp
    exact ⟨hactive, hstep.index_lt hp, i, hi, hawaits⟩
  · intro elapsed hactive
    have hscript : (s.settle host elapsed).session.script = s.session.script := by
      rw [Interpreter.settle]
      split
      · rw [complete]
        cases (s.animate host elapsed).1.session.pending <;> rfl
      · rfl
    constructor
    · intro p hp
      have hsafe : PollsSafely host elapsed (s.settle host elapsed) p := hstep.settle.pollsSafely hp
      have hok := hsafe.step_ok hp
      refine ⟨hsafe, ?_⟩
      rw [update_of_active hactive]
      generalize (s.settle host elapsed).step host elapsed = result at hok ⊢
      obtain ⟨s', outcome⟩ := result
      cases hok
      rfl
    · intro hpending
      rw [← hscript]
      by_cases hindex :
          (s.settle host elapsed).session.index < (s.settle host elapsed).session.script.length
      · refine .inl ⟨hindex,
          (s.settle host elapsed).session.script[(s.settle host elapsed).session.index],
          List.getElem?_eq_getElem hindex, ?_⟩
        rw [Interpreter.step, hpending, Session.current?, List.getElem?_eq_getElem hindex]
      · have hcurrent : (s.settle host elapsed).session.current? = none :=
          List.getElem?_eq_none (Nat.le_of_not_lt hindex)
        refine .inr ⟨Nat.le_of_not_lt hindex, ?_⟩
        rw [update_of_active hactive, Interpreter.step, hpending]
        simp only [hcurrent]

def patient : Handler Unit where
  interpret _ _ state := ⟨.pending, [], state⟩
  update _ _ _ state := ⟨.pending, [], state⟩
  signal _ _ state := ([], state)

def atDoor : Interpreter Recording Unit :=
  let fresh : Interpreter Recording Unit := { world := .start [] Recording.defaultResolution }
  let script : List Instruction := [{ command := .custom "door" }]
  let started := fresh.answer Recording.host (.start script (some (patient, ())) 0)
  started.answer Recording.host (.update ⟨0⟩)

theorem suspension_matches_atDoor :
    Reachable Recording.host atDoor ∧ atDoor.session.pending = some .custom ∧
      atDoor.session.index < atDoor.session.script.length ∧
        (atDoor.update Recording.host ⟨0⟩).2 = none := by
  have hreachable : Reachable Recording.host atDoor :=
    ((Reachable.fresh _).answer (.start _ _ _)).answer (.update _)
  obtain ⟨hpending, hframe⟩ := hreachable.suspension_matches
  exact ⟨hreachable, rfl, (hpending .custom rfl).2.1, ((hframe ⟨0⟩ rfl).1 .custom rfl).2⟩

end Interpreter

end Cutscene
