import Cutscene.Proofs.Stage.Frame
import Cutscene.Proofs.Stage.Hooks
import Mathlib.Data.List.Induction

namespace Cutscene

variable {σ τ : Type}

def Call.interrupts : Call σ τ → Bool
  | .start .. | .finish => true
  | .startFile bytes .. => (Script.ofBytes bytes).isOk
  | _ => false

/-- The handler has not done with this custom instruction. -/
structure Session.BusyWith (s : Session) (name : String) (i : Instruction) : Prop where
  pending : s.pending = some .custom
  current : s.current? = some i
  command : i.command = .custom name

namespace Interpreter

variable {host : Host σ} {elapsed : Duration} {s : Interpreter σ τ} {i : Instruction}
  {name : String}

theorem pending_settle {p : Suspension} (h : (s.settle host elapsed).session.pending = some p) :
    s.session.pending = some p := by
  cases hmeet : (s.animate host elapsed).2.meet s.session.pending with
  | true =>
      rw [settle_of_meet hmeet, pending_complete] at h
      cases h
  | false =>
      rw [settle_of_not_meet hmeet] at h
      exact h

theorem callHandler_of_handled {hook : Handler τ → τ → Answer τ} {handler : Handler τ} {state : τ}
    (h : s.handler = some (handler, state)) :
    s.callHandler host hook =
      let answer := hook handler state
      ({ s with
        world := host.tellAll answer.events s.world
        handler := some (handler, answer.state) }, answer.step) := by
  rw [callHandler, h]

def answered (session : Session) : Step → Session
  | .pending => { session with pending := some .custom }
  | .done => passed session

theorem update_of_busy (host : Host σ) (elapsed : Duration) {handler : Handler τ} {state : τ}
    (hactive : s.session.active = true) (hbusy : s.session.BusyWith name i)
    (hhandler : s.handler = some (handler, state)) :
    s.hooks host (.update elapsed) =
        [.update name i elapsed (handler.update name i elapsed state).step] ∧
      (s.update host elapsed).1.session =
        answered s.session (handler.update name i elapsed state).step := by
  have hnot : (s.animate host elapsed).2.meet s.session.pending = false := by
    rw [hbusy.pending]
    rfl
  have hmoved := settle_of_not_meet hnot
  have hpending : (s.animate host elapsed).1.session.pending = some .custom := hbusy.pending
  have hcurrent : (s.animate host elapsed).1.session.current? = some i := hbusy.current
  have hhandler' : (s.animate host elapsed).1.handler = some (handler, state) := hhandler
  have hname : i.command.name = name := by
    rw [hbusy.command]
    rfl
  constructor
  · rw [hooks_update, frameHooks, if_pos hactive, hmoved, stepHooks, hpending]
    simp only [pollHooks, hcurrent, asked, hhandler', hname]
  · rw [update_fst_of_active hactive, hmoved, step, hpending]
    simp only [poll, hcurrent, callHandler_of_handled hhandler', hname]
    cases (handler.update name i elapsed state).step with
    | pending =>
        rw [answered, ← hbusy.pending]
        rfl
    | done => exact session_complete hpending

theorem update_of_carriesOut (h : CarriesOut host elapsed s i) :
    s.hooks host (.update elapsed) = (s.settle host elapsed).carryOutHooks i ∧
      (s.update host elapsed).1 = conclude ((s.settle host elapsed).dispatch host i) ∧
      ((s.update host elapsed).2 = none ↔
        ∃ flow, ((s.settle host elapsed).carryOut host i).2 = .ok flow) := by
  obtain ⟨hactive, hpending, hi⟩ := carriesOut_iff.mp h
  have hstep : (s.settle host elapsed).step host elapsed = (s.settle host elapsed).dispatch host i :=
    step_of_ready hpending hi
  refine ⟨?_, ?_, ?_⟩
  · rw [hooks_update, frameHooks, if_pos hactive, stepHooks, hpending]
    simp only [hi]
  · rw [update_fst_of_active hactive, hstep]
  · rw [update_of_active hactive, hstep, dispatch]
    generalize (s.settle host elapsed).carryOut host i = result
    obtain ⟨left, fault | flow⟩ := result
    · constructor
      · intro hnone
        cases hnone
      · rintro ⟨flow, hflow⟩
        cases hflow
    · exact ⟨fun _ => ⟨flow, rfl⟩, fun _ => rfl⟩

theorem update_of_custom (h : CarriesOut host elapsed s i) (hcommand : i.command = .custom name) :
    (∀ handler state, s.handler = some (handler, state) →
      s.hooks host (.update elapsed) =
          [.interpret name i (handler.interpret name i state).step] ∧
        (s.update host elapsed).1.session =
          answered (s.settle host elapsed).session (handler.interpret name i state).step) ∧
      (s.handler = none → s.hooks host (.update elapsed) = [] ∧
        (s.update host elapsed).1.session = passed (s.settle host elapsed).session) := by
  obtain ⟨hhooks, hupdate, -⟩ := update_of_carriesOut h
  obtain ⟨-, hpending, -⟩ := carriesOut_iff.mp h
  have hsettled := (settle_frame host elapsed s).2.1
  have hdone :
      { (s.settle host elapsed).session with index := (s.settle host elapsed).session.index + 1 } =
        passed (s.settle host elapsed).session := by
    rw [passed, ← hpending]
  rw [hhooks, hupdate]
  constructor
  · intro handler state hhandler
    rw [← hsettled] at hhandler
    constructor
    · rw [carryOutHooks, hcommand]
      simp only [asked, hhandler]
    · rw [dispatch, carryOut, hcommand]
      simp only [callHandler_of_handled hhandler]
      cases (handler.interpret name i state).step with
      | pending => rfl
      | done => exact hdone
  · intro hhandler
    rw [← hsettled] at hhandler
    refine ⟨carryOutHooks_of_unhandled hhandler, ?_⟩
    rw [dispatch, carryOut, hcommand]
    simp only [callHandler, hhandler]
    exact hdone

theorem update_of_signal (h : CarriesOut host elapsed s i)
    (hcommand : i.command = .builtin .signal) :
    match i.strings[0]? with
    | some group => (s.update host elapsed).2 = none ∧
        s.hooks host (.update elapsed) = if s.handler.isSome then [.signal group i] else []
    | none => (s.update host elapsed).2 ≠ none ∧ s.hooks host (.update elapsed) = [] := by
  obtain ⟨hhooks, -, herror⟩ := update_of_carriesOut h
  have hsettled := (settle_frame host elapsed s).2.1
  rw [hhooks, Ne, herror, carryOutHooks, carryOut, hcommand]
  simp only [Action.ofInstruction, Instruction.string, Instruction.require]
  cases i.strings[0]? with
  | none =>
      refine ⟨?_, rfl⟩
      rintro ⟨flow, hflow⟩
      cases hflow
  | some group =>
      refine ⟨⟨.done, rfl⟩, ?_⟩
      rw [← hsettled]
      rfl

theorem update_of_builtin {opcode : Opcode} (h : CarriesOut host elapsed s i)
    (hcommand : i.command = .builtin opcode) (hopcode : opcode ≠ .signal) :
    s.hooks host (.update elapsed) = [] := by
  rw [(update_of_carriesOut h).1, carryOutHooks, hcommand]
  cases haction : Action.ofInstruction i opcode with
  | error parameter => simp only [haction]
  | ok action =>
      have hfrom := Action.ofInstruction_comesFrom haction
      simp only [haction]
      cases action with
      | signal group => exact absurd hfrom.1 hopcode
      | skip | finish | suspend | tell | attempt | press | awaitButton | load | change
      | awaitDrawing | maximize | spriteGroup | unload | moveCamera | awaitCamera | fullscreen
      | forceResizeResolution => rfl

theorem pending_of_builtin {opcode : Opcode} (h : CarriesOut host elapsed s i)
    (hcommand : i.command = .builtin opcode) :
    (s.update host elapsed).1.session.pending ≠ some .custom := by
  obtain ⟨-, hpending, -⟩ := carriesOut_iff.mp h
  have hsession := (carryOut_frame host i (s.settle host elapsed)).1
  have hawaits := @awaits_carryOut σ τ host (s.settle host elapsed) i .custom
  rw [(update_of_carriesOut h).2.1, dispatch]
  generalize (s.settle host elapsed).carryOut host i = result at hsession hawaits
  obtain ⟨left, fault | flow⟩ := result
  · exact (Option.some_ne_none _).symm
  · cases flow with
    | done =>
        change left.session.pending ≠ some .custom
        rw [hsession, hpending]
        exact (Option.some_ne_none _).symm
    | finish => exact (Option.some_ne_none _).symm
    | suspend p =>
        -- Only a custom instruction suspends the script for the handler.
        intro hp
        obtain rfl := Option.some.inj hp
        obtain ⟨⟨name, hcustom⟩, -⟩ := hawaits rfl
        rw [hcommand] at hcustom
        cases hcustom

theorem step_of_other (host : Host σ) (elapsed : Duration) {p : Suspension}
    (hpending : s.session.pending = some p) (hp : p ≠ .custom) :
    s.stepHooks elapsed = [] ∧
      (conclude (s.step host elapsed)).session.pending ≠ some .custom := by
  have hsession := session_poll host elapsed hpending
  have hafter : p.after elapsed ≠ .custom := by
    cases p with
    | custom => exact absurd rfl hp
    | wait | button | anyButton | drawingPosition | cameraPosition =>
        intro hafter
        cases hafter
  rw [stepHooks, step, hpending]
  constructor
  · cases p with
    | custom => exact absurd rfl hp
    | wait | button | anyButton | drawingPosition | cameraPosition => rfl
  · simp only
    generalize s.poll host elapsed p = result at hsession
    obtain ⟨left, fault | done⟩ := result
    · exact (Option.some_ne_none _).symm
    · cases done with
      | false =>
          change left.session.pending ≠ some .custom
          rw [hsession]
          exact fun h => hafter (Option.some.inj h)
      | true =>
          change left.complete.session.pending ≠ some .custom
          rw [pending_complete]
          exact (Option.some_ne_none _).symm

theorem update_of_idle (hbusy : s.session.pending ≠ some .custom)
    (hnone : ∀ i, ¬ CarriesOut host elapsed s i) :
    s.hooks host (.update elapsed) = [] ∧
      (s.update host elapsed).1.session.pending ≠ some .custom := by
  cases hactive : s.session.active with
  | false =>
      rw [hooks_update, frameHooks, hactive, update_of_inactive hactive]
      exact ⟨rfl, hbusy⟩
  | true =>
      rw [hooks_update, frameHooks, if_pos hactive, update_fst_of_active hactive]
      -- Nothing is carried out, so what is left is a suspension of another kind or the end.
      cases hpending : (s.settle host elapsed).session.pending with
      | some p =>
          rw [pending_settle hpending] at hbusy
          exact step_of_other host elapsed hpending fun hp => hbusy (congrArg some hp)
      | none =>
          cases hi : (s.settle host elapsed).session.current? with
          | some i => exact absurd (carriesOut_iff.mpr ⟨hactive, hpending, hi⟩) (hnone i)
          | none =>
              rw [stepHooks, step, hpending]
              simp only [hi]
              exact ⟨trivial, (Option.some_ne_none _).symm⟩

inductive Occasion (host : Host σ) (elapsed : Duration) (s : Interpreter σ τ) : Prop
  /-- It has not done with an instruction yet. -/
  | held {name : String} {i : Instruction} {handler : Handler τ} {state : τ}
      (hactive : s.session.active = true) (hbusy : s.session.BusyWith name i)
      (hhandler : s.handler = some (handler, state))
  | custom {name : String} {i : Instruction} (hcarries : CarriesOut host elapsed s i)
      (hcommand : i.command = .custom name)
  | builtin {opcode : Opcode} {i : Instruction} (hcarries : CarriesOut host elapsed s i)
      (hcommand : i.command = .builtin opcode)
  | idle (hbusy : s.session.pending ≠ some .custom)
      (hnone : ∀ i, ¬ CarriesOut host elapsed s i)

theorem InStep.occasion (h : s.InStep) (host : Host σ) (elapsed : Duration) :
    Occasion host elapsed s := by
  by_cases hbusy : s.session.pending = some .custom
  · obtain ⟨hactive, i, hi, ⟨name, hcommand⟩, hsome⟩ := h .custom hbusy
    obtain ⟨⟨handler, state⟩, hhandler⟩ := Option.isSome_iff_exists.mp hsome
    exact .held hactive ⟨hbusy, hi, hcommand⟩ hhandler
  · by_cases hcarries : ∃ i, CarriesOut host elapsed s i
    · obtain ⟨i, hi⟩ := hcarries
      cases hcommand : i.command with
      | custom name => exact .custom hi hcommand
      | builtin opcode => exact .builtin hi hcommand
    · exact .idle hbusy fun i hi => hcarries ⟨i, hi⟩

/-- The frame gives reason to call the hook. -/
def Warrants (host : Host σ) (elapsed : Duration) (s : Interpreter σ τ) : Hook → Prop
  | .interpret name i _ => CarriesOut host elapsed s i ∧ i.command = .custom name
  | .update name i past _ => past = elapsed ∧ s.session.BusyWith name i
  | .signal group i => CarriesOut host elapsed s i ∧ i.command = .builtin .signal ∧
      i.strings[0]? = some group ∧ (s.update host elapsed).2 = none

/-- What an interpreter in this state may ask of its handler. -/
structure Attended (host : Host σ) (s : Interpreter σ τ) : Prop where
  /-- To keep an account of it makes no difference. -/
  account : ∀ call, (s.audited []).answer host call.audited =
    (s.answer host call).audited (s.hooks host call)
  /-- Only a frame of a running script calls a hook. -/
  silent : ∀ call, (∀ elapsed ∈ frames [call], s.session.active = false) → s.hooks host call = []
  /-- There is a reason to call it, and no other is called in the same frame. -/
  once : ∀ elapsed, ∀ hook ∈ s.hooks host (.update elapsed),
    Warrants host elapsed s hook ∧ s.hooks host (.update elapsed) = [hook]
  /-- The handler is told of a custom instruction that is met. -/
  interpret : ∀ handler state, s.handler = some (handler, state) →
    ∀ elapsed i name, CarriesOut host elapsed s i → i.command = .custom name →
      s.hooks host (.update elapsed) = [.interpret name i (handler.interpret name i state).step]
  /-- It is told of a frame in which it has not done with it yet. -/
  update : ∀ handler state, s.handler = some (handler, state) →
    ∀ elapsed i name, s.session.BusyWith name i →
      s.hooks host (.update elapsed) =
        [.update name i elapsed (handler.update name i elapsed state).step]
  /-- It is told of a signal that does not fail. -/
  signal : s.handler.isSome = true → ∀ elapsed i, CarriesOut host elapsed s i →
    i.command = .builtin .signal → (s.update host elapsed).2 = none →
      ∃ group, i.strings[0]? = some group ∧ s.hooks host (.update elapsed) = [.signal group i]
  /-- Without a handler a custom instruction is completed in the frame that meets it. -/
  unattended : s.handler = none → ∀ elapsed i name n,
    .dispatched n ∈ s.marks host (.update elapsed) → s.session.script[n]? = some i →
      i.command = .custom name → .completed n ∈ s.marks host (.update elapsed) ∧
        (s.update host elapsed).1.session.pending = none ∧
          (s.update host elapsed).1.session.index = n + 1

theorem InStep.warrants (h : s.InStep) {hook : Hook}
    (hmem : hook ∈ s.hooks host (.update elapsed)) :
    Warrants host elapsed s hook ∧ s.hooks host (.update elapsed) = [hook] := by
  cases h.occasion host elapsed with
  | held hactive hbusy hhandler =>
      rw [(update_of_busy host elapsed hactive hbusy hhandler).1] at hmem ⊢
      rw [List.mem_singleton.mp hmem]
      exact ⟨⟨rfl, hbusy⟩, rfl⟩
  | custom hcarries hcommand =>
      obtain ⟨hhandled, hunhandled⟩ := update_of_custom hcarries hcommand
      cases hhandler : s.handler with
      | none =>
          rw [(hunhandled hhandler).1] at hmem
          cases hmem
      | some entry =>
          rw [(hhandled _ _ hhandler).1] at hmem ⊢
          rw [List.mem_singleton.mp hmem]
          exact ⟨⟨hcarries, hcommand⟩, rfl⟩
  | @builtin opcode i hcarries hcommand =>
      by_cases hopcode : opcode = .signal
      · subst hopcode
        have hsignal := update_of_signal hcarries hcommand
        cases hgroup : i.strings[0]? with
        | none =>
            rw [hgroup] at hsignal
            rw [hsignal.2] at hmem
            cases hmem
        | some group =>
            rw [hgroup] at hsignal
            obtain ⟨hnone, hhooks⟩ := hsignal
            rw [hhooks] at hmem ⊢
            split at hmem
            · rename_i hsome
              rw [List.mem_singleton.mp hmem, if_pos hsome]
              exact ⟨⟨hcarries, hcommand, hgroup, hnone⟩, rfl⟩
            · cases hmem
      · rw [update_of_builtin hcarries hcommand hopcode] at hmem
        cases hmem
  | idle hbusy hnone =>
      rw [(update_of_idle hbusy hnone).1] at hmem
      cases hmem

theorem completed_of_unhandled {n : Nat} (hhandler : s.handler = none)
    (hdispatched : .dispatched n ∈ s.marks host (.update elapsed))
    (hi : s.session.script[n]? = some i) (hcommand : i.command = .custom name) :
    .completed n ∈ s.marks host (.update elapsed) ∧
      (s.update host elapsed).1.session.pending = none ∧
        (s.update host elapsed).1.session.index = n + 1 := by
  have hcarries : CarriesOut host elapsed s i := ⟨n, hdispatched, hi⟩
  obtain ⟨hactive, hpending, rfl, -⟩ := (dispatched_mem_marks_iff host elapsed s n).mp hdispatched
  have hcurrent := (carriesOut_iff.mp hcarries).2.2
  have hsettled : (s.settle host elapsed).handler = none :=
    (settle_frame host elapsed s).2.1.trans hhandler
  rw [((update_of_custom hcarries hcommand).2 hhandler).2]
  refine ⟨?_, rfl, rfl⟩
  rw [marks_update_of_active hactive, stepMarks, hpending]
  simp only [hcurrent, (carryOut_of_custom hcommand).2, callHandler, hsettled]
  exact List.mem_append_right _ (List.mem_cons_of_mem _ List.mem_cons_self)

theorem InStep.attended (h : s.InStep) (host : Host σ) : Attended host s where
  account := answer_audited host s
  silent := hooks_of_inactive
  once _ _ hmem := h.warrants hmem
  interpret handler state hhandler _ _ _ hcarries hcommand :=
    ((update_of_custom hcarries hcommand).1 handler state hhandler).1
  update _ _ hhandler elapsed _ _ hbusy :=
    (update_of_busy host elapsed (h _ hbusy.pending).1 hbusy hhandler).1
  signal hsome elapsed i hcarries hcommand hok := by
    have hsignal := update_of_signal hcarries hcommand
    cases hgroup : i.strings[0]? with
    | none =>
        rw [hgroup] at hsignal
        exact absurd hok hsignal.1
    | some group =>
        rw [hgroup] at hsignal
        rw [hsignal.2, if_pos hsome]
        exact ⟨group, rfl, rfl⟩
  unattended hhandler _ _ _ _ hdispatched hi hcommand :=
    completed_of_unhandled hhandler hdispatched hi hcommand

theorem session_of_busy {call : Call σ τ} (hcall : call.interrupts = false)
    (hframe : frames [call] = []) (hbusy : s.session.BusyWith name i) :
    (s.answer host call).session = s.session := by
  cases call with
  | update elapsed => cases hframe
  | start | finish => cases hcall
  | startFile bytes handler index =>
      rw [answer, startFile]
      cases hscript : Script.ofBytes bytes with
      | ok script =>
          rw [Call.interrupts, hscript] at hcall
          cases hcall
      | error cause => rfl
  | push button =>
      rw [answer, push, hbusy.pending]
      simp [Suspension.releasedBy]
  | draw | release | fire | outside => rfl

theorem InStep.answer_of_busy (h : s.InStep) (hbusy : s.session.BusyWith name i) {call : Call σ τ}
    (hcall : call.interrupts = false)
    (hanswers : ∀ hook ∈ s.hooks host call, hook.answer? ≠ some .done) :
    (s.answer host call).session = s.session ∧
      s.hooks host call = (frames [call]).map fun elapsed => .update name i elapsed .pending := by
  cases call with
  | update elapsed =>
      obtain ⟨hactive, -, -, -, hsome⟩ := h .custom hbusy.pending
      obtain ⟨⟨handler, state⟩, hhandler⟩ := Option.isSome_iff_exists.mp hsome
      obtain ⟨hhooks, hsession⟩ := update_of_busy host elapsed hactive hbusy hhandler
      rw [hhooks] at hanswers ⊢
      cases hstep : (handler.update name i elapsed state).step with
      | done =>
          rw [hstep] at hanswers
          exact absurd rfl (hanswers _ (List.mem_singleton_self _))
      | pending =>
          rw [hstep, answered, ← hbusy.pending] at hsession
          exact ⟨hsession, rfl⟩
  | start | startFile | draw | finish | push | release | fire | outside =>
      exact ⟨session_of_busy hcall rfl hbusy, hooks_of_not_frame rfl⟩

/-- The calls leave the handler at its work: it is told of the frames among them, and is never
done. -/
def Unfinished (host : Host σ) (s : Interpreter σ τ) (name : String) (i : Instruction)
    (calls : List (Call σ τ)) : Prop :=
  (∀ call ∈ calls, call.interrupts = false) ∧
    s.talk host calls = calls.map fun call =>
      (frames [call]).map fun elapsed => .update name i elapsed .pending

theorem InStep.unfinished (h : s.InStep) (hbusy : s.session.BusyWith name i)
    (calls : List (Call σ τ)) (hcalls : ∀ call ∈ calls, call.interrupts = false)
    (hanswers : ∀ hooks ∈ s.talk host calls, ∀ hook ∈ hooks, hook.answer? ≠ some .done) :
    Unfinished host s name i calls ∧ (s.run host calls).session.BusyWith name i := by
  induction calls generalizing s with
  | nil => exact ⟨⟨hcalls, rfl⟩, hbusy⟩
  | cons call calls ih =>
      obtain ⟨hcall, hcalls'⟩ := List.forall_mem_cons.mp hcalls
      obtain ⟨hfirst, hrest⟩ := List.forall_mem_cons.mp hanswers
      -- The first call leaves the session as it is, so that the handler is busy after it as well.
      obtain ⟨hsession, hhooks⟩ := h.answer_of_busy hbusy hcall hfirst
      rw [← hsession] at hbusy
      obtain ⟨⟨-, htalk⟩, hrun⟩ := ih (h.answer call) hbusy hcalls' hrest
      refine ⟨⟨hcalls, ?_⟩, hrun⟩
      rw [talk, hhooks, htalk, List.map_cons]

theorem busyWith_answered {session : Session} {step : Step}
    (h : (answered session step).BusyWith name i) :
    step = .pending ∧ session.current? = some i ∧ i.command = .custom name := by
  cases step with
  | pending => exact ⟨rfl, h.current, h.command⟩
  | done => cases h.pending

theorem InStep.busy_update (h : s.InStep)
    (hbusy : (s.update host elapsed).1.session.BusyWith name i) :
    (s.session.BusyWith name i ∧
        s.hooks host (.update elapsed) = [.update name i elapsed .pending]) ∨
      s.hooks host (.update elapsed) = [.interpret name i .pending] := by
  have hpending := hbusy.pending
  cases h.occasion host elapsed with
  | held hactive hheld hhandler =>
      obtain ⟨hhooks, hsession⟩ := update_of_busy host elapsed hactive hheld hhandler
      rw [hsession] at hbusy
      obtain ⟨hstep, hcurrent, hcommand⟩ := busyWith_answered hbusy
      obtain rfl := Option.some.inj (hheld.current.symm.trans hcurrent)
      obtain rfl := Command.custom.inj (hheld.command.symm.trans hcommand)
      refine .inl ⟨hheld, ?_⟩
      rw [hhooks, hstep]
  | custom hcarries hcommand =>
      obtain ⟨hhandled, hunhandled⟩ := update_of_custom hcarries hcommand
      cases hhandler : s.handler with
      | none =>
          rw [(hunhandled hhandler).2] at hpending
          cases hpending
      | some entry =>
          obtain ⟨hhooks, hsession⟩ := hhandled _ _ hhandler
          rw [hsession] at hbusy
          obtain ⟨hstep, hcurrent, hcommand'⟩ := busyWith_answered hbusy
          obtain rfl := Option.some.inj ((carriesOut_iff.mp hcarries).2.2.symm.trans hcurrent)
          obtain rfl := Command.custom.inj (hcommand.symm.trans hcommand')
          refine .inr ?_
          rw [hhooks, hstep]
  | builtin hcarries hcommand => exact absurd hpending (pending_of_builtin hcarries hcommand)
  | idle hidle hnone => exact absurd hpending (update_of_idle hidle hnone).2

theorem InStep.busy_origin (h : s.InStep) {call : Call σ τ}
    (hbusy : (s.answer host call).session.BusyWith name i) :
    (s.session.BusyWith name i ∧ call.interrupts = false ∧
        s.hooks host call = (frames [call]).map fun elapsed => .update name i elapsed .pending) ∨
      ∃ elapsed, call = .update elapsed ∧ s.hooks host call = [.interpret name i .pending] := by
  have hpending := hbusy.pending
  cases call with
  | start | finish => cases hpending
  | startFile bytes handler index =>
      rw [Interpreter.answer, startFile] at hbusy hpending
      cases hscript : Script.ofBytes bytes with
      | ok script =>
          rw [hscript] at hpending
          cases hpending
      | error cause =>
          rw [hscript] at hbusy
          refine .inl ⟨hbusy, ?_, hooks_of_not_frame rfl⟩
          rw [Call.interrupts, hscript]
          rfl
  | draw | release | fire | outside => exact .inl ⟨hbusy, rfl, hooks_of_not_frame rfl⟩
  | push button =>
      rw [Interpreter.answer, push] at hbusy hpending
      split at hbusy
      · rename_i hreleased
        rw [if_pos hreleased, pending_complete] at hpending
        cases hpending
      · exact .inl ⟨hbusy, rfl, hooks_of_not_frame rfl⟩
  | update elapsed =>
      obtain ⟨hheld, hhooks⟩ | hhooks := h.busy_update hbusy
      · exact .inl ⟨hheld, rfl, hhooks⟩
      · exact .inr ⟨elapsed, rfl, hhooks⟩

theorem InStep.busy_of_interpret (h : s.InStep)
    (hmem : .interpret name i .pending ∈ s.hooks host (.update elapsed)) :
    (s.update host elapsed).1.session.BusyWith name i := by
  obtain ⟨⟨hcarries, hcommand⟩, hhooks⟩ := h.warrants hmem
  obtain ⟨hhandled, hunhandled⟩ := update_of_custom hcarries hcommand
  cases hhandler : s.handler with
  | none =>
      rw [(hunhandled hhandler).1] at hmem
      cases hmem
  | some entry =>
      obtain ⟨hhooks', hsession⟩ := hhandled _ _ hhandler
      rw [hhooks] at hhooks'
      injection hhooks' with hhook
      injection hhook with _ _ hstep
      rw [hsession, ← hstep]
      exact ⟨rfl, (carriesOut_iff.mp hcarries).2.2, hcommand⟩

/-- Of an instruction that it is busy with the handler has been told at some time, and never since
has it been done or the script been interrupted. -/
theorem told_of_busy (host : Host σ) (world : σ) (calls : List (Call σ τ)) {name : String}
    {i : Instruction}
    (hbusy : (({ world } : Interpreter σ τ).run host calls).session.BusyWith name i) :
    ∃ before elapsed after, calls = before ++ .update elapsed :: after ∧
      let met := ({ world } : Interpreter σ τ).run host before
      met.hooks host (.update elapsed) = [.interpret name i .pending] ∧
        Unfinished host (met.update host elapsed).1 name i after := by
  induction calls using List.reverseRecOn with
  | nil => cases hbusy.pending
  | append_singleton calls call ih =>
      have hreachable : Reachable host (({ world } : Interpreter σ τ).run host calls) :=
        (Reachable.fresh world).run calls
      rw [run_append] at hbusy
      -- The last call has found the handler busy already, or is the one that has told it.
      obtain ⟨hbusy', hcall, hhooks⟩ | ⟨elapsed, rfl, hhooks⟩ := hreachable.inStep.busy_origin hbusy
      · obtain ⟨before, elapsed, after, rfl, htold, hcalls, htalk⟩ := ih hbusy'
        refine ⟨before, elapsed, after ++ [call], ?_, htold, ?_, ?_⟩
        · rw [List.append_assoc, List.cons_append]
        · simp only [List.forall_mem_append, List.forall_mem_singleton]
          exact ⟨hcalls, hcall⟩
        · rw [run_append] at hhooks
          rw [talk_append, htalk, List.map_append, List.map_singleton, ← hhooks]
          rfl
      · exact ⟨calls, elapsed, [], rfl, hhooks, nofun, rfl⟩

/-- The handler is told once of a custom instruction that is met, and if it is not done then, once
in each of the following frames up to the one in which it is, or to the end of the script; and it
is told of nothing else but the signals. -/
theorem handler_protocol (host : Host σ) :
    (∀ s : Interpreter σ τ, Reachable host s → Attended host s ∧
      ∀ elapsed name i, .interpret name i .pending ∈ s.hooks host (.update elapsed) →
        let met := (s.update host elapsed).1
        ∀ calls : List (Call σ τ), (∀ call ∈ calls, call.interrupts = false) →
          (∀ hooks ∈ met.talk host calls, ∀ hook ∈ hooks, hook.answer? ≠ some .done) →
          Unfinished host met name i calls ∧
            ∀ next, ∃ answer, (met.run host calls).hooks host (.update next) =
              [.update name i next answer]) ∧
    ∀ (world : σ) (calls : List (Call σ τ)) (elapsed : Duration) (name : String) (i : Instruction)
      (past : Duration) (answer : Step),
      let fresh : Interpreter σ τ := { world }
      .update name i past answer ∈ (fresh.run host calls).hooks host (.update elapsed) →
        past = elapsed ∧ ∃ before first after, calls = before ++ .update first :: after ∧
          (fresh.run host before).hooks host (.update first) = [.interpret name i .pending] ∧
          Unfinished host ((fresh.run host before).update host first).1 name i after := by
  constructor
  · intro s h
    refine ⟨h.inStep.attended host, fun elapsed name i hmem => ?_⟩
    intro met calls hcalls hanswers
    have hmet : met.InStep := (h.answer (.update elapsed)).inStep
    obtain ⟨hunfinished, hbusy⟩ :=
      hmet.unfinished (h.inStep.busy_of_interpret hmem) calls hcalls hanswers
    refine ⟨hunfinished, fun next => ?_⟩
    have hnow : (met.run host calls).InStep := ((h.answer (.update elapsed)).run calls).inStep
    obtain ⟨hactive, -, -, -, hsome⟩ := hnow .custom hbusy.pending
    obtain ⟨handler, hhandler⟩ := Option.isSome_iff_exists.mp hsome
    exact ⟨_, (update_of_busy host next hactive hbusy hhandler).1⟩
  · intro world calls elapsed name i past answer fresh hmem
    have hnow : (fresh.run host calls).InStep := ((Reachable.fresh world).run calls).inStep
    obtain ⟨⟨hpast, hbusy⟩, -⟩ := hnow.warrants hmem
    exact ⟨hpast, told_of_busy host world calls hbusy⟩

def timer : Handler Nat where
  interpret _ _ frames := ⟨.pending, [], frames⟩
  update _ _ _ frames := ⟨if frames = 0 then .done else .pending, [], frames - 1⟩
  signal _ _ frames := ([], frames)

def guard : Instruction := { command := .custom "guard" }

def atGuard : Interpreter Recording Nat :=
  let fresh : Interpreter Recording Nat := { world := .start [] Recording.defaultResolution }
  fresh.run Recording.host [.start [guard] (some (timer, 1)) 0]

theorem handler_protocol_atGuard :
    let met := (atGuard.update Recording.host ⟨0⟩).1
    let calls : List (Call Recording Nat) := [.draw, .update ⟨1⟩, .push "A"]
    Reachable Recording.host atGuard ∧
      .interpret "guard" guard .pending ∈ atGuard.hooks Recording.host (.update ⟨0⟩) ∧
      met.talk Recording.host calls = [[], [.update "guard" guard ⟨1⟩ .pending], []] ∧
      ∃ answer, (met.run Recording.host calls).hooks Recording.host (.update ⟨2⟩) =
        [.update "guard" guard ⟨2⟩ answer] := by
  intro met calls
  have hreachable : Reachable Recording.host atGuard := (Reachable.fresh _).run _
  have htold : .interpret "guard" guard .pending ∈ atGuard.hooks Recording.host (.update ⟨0⟩) := by
    decide +kernel
  have hcalls : ∀ call ∈ calls, call.interrupts = false := by
    simp only [calls, List.forall_mem_cons]
    exact ⟨rfl, rfl, rfl, nofun⟩
  have hanswers : ∀ hooks ∈ met.talk Recording.host calls, ∀ hook ∈ hooks,
      hook.answer? ≠ some .done := by decide +kernel
  obtain ⟨⟨-, htalk⟩, hnext⟩ :=
    ((handler_protocol Recording.host).1 atGuard hreachable).2 ⟨0⟩ "guard" guard htold calls hcalls
      hanswers
  exact ⟨hreachable, htold, htalk, hnext ⟨2⟩⟩

end Interpreter

end Cutscene
