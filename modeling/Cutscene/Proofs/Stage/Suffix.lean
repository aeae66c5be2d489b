import Cutscene.Proofs.Stage.Hooks

namespace Cutscene

/-- The same error in a script that has `k` more instructions before. -/
def CutsceneError.later (k : Nat) : CutsceneError → CutsceneError
  | .instruction index fault => .instruction (index + k) fault
  | .script cause => .script cause

/-- The session at the same instruction, as part of a script that goes on like its own from number
`k` on. -/
def Session.within (script : List Instruction) (k : Nat) (session : Session) : Session :=
  { session with script, index := session.index + k }

theorem Session.current?_within {script : List Instruction} {k : Nat} {session : Session}
    (h : session.script = script.drop k) :
    (session.within script k).current? = session.current? := by
  rw [current?, current?, h, List.getElem?_drop, Nat.add_comm k]
  rfl

namespace Interpreter

variable {σ τ : Type} {host : Host σ} {elapsed : Duration} {s : Interpreter σ τ} {i : Instruction}
  {script : List Instruction} {k : Nat}

def inSession (session : Session) (s : Interpreter σ τ) : Interpreter σ τ := { s with session }

def within (script : List Instruction) (k : Nat) (s : Interpreter σ τ) : Interpreter σ τ :=
  s.inSession (s.session.within script k)

@[simp] theorem world_inSession (session : Session) (s : Interpreter σ τ) :
    (s.inSession session).world = s.world := rfl

@[simp] theorem drawings_inSession (session : Session) (s : Interpreter σ τ) :
    (s.inSession session).drawings = s.drawings := rfl

theorem callHandler_inSession (hook : Handler τ → τ → Answer τ) (session : Session) :
    (s.inSession session).callHandler host hook =
      ((s.callHandler host hook).1.inSession session, (s.callHandler host hook).2) := by
  obtain ⟨world, old, drawings, camera, _ | ⟨handler, state⟩⟩ := s <;> rfl

theorem sendSignal_inSession (group : String) (session : Session) :
    (s.inSession session).sendSignal host group i =
      (s.sendSignal host group i).inSession session := by
  obtain ⟨world, old, drawings, camera, _ | ⟨handler, state⟩⟩ := s <;> rfl

theorem changeDrawing_inSession (name : String) (f : Drawing → Drawing) (flow : Flow)
    (session : Session) :
    (s.inSession session).changeDrawing name f flow =
      ((s.changeDrawing name f flow).1.inSession session, (s.changeDrawing name f flow).2) := by
  by_cases hhas : s.drawings.has name = true
  · simp [changeDrawing, hhas, inSession]
  · simp [changeDrawing, hhas]

theorem load_inSession (name : String) (persistent : Option Bool) (picture : Picture)
    (session : Session) :
    (s.inSession session).load host name persistent picture =
      ((s.load host name persistent picture).1.inSession session,
        (s.load host name persistent picture).2) := by
  cases picture with
  | image path =>
      simp only [load, world_inSession]
      generalize host.attempt (.loadImage path) s.world = result
      obtain ⟨_ | cause, world⟩ := result <;> rfl
  | solid color size => rfl

/-- No action depends on the session, and so on the place of its instruction. -/
theorem perform_inSession (action : Action) (session : Session) :
    (s.inSession session).perform host i action =
      ((s.perform host i action).1.inSession session, (s.perform host i action).2) := by
  cases action with
  | skip | finish | suspend | tell | moveCamera | awaitCamera | forceResizeResolution => rfl
  | signal group => simp only [perform, sendSignal_inSession]
  | change | awaitDrawing | maximize => exact changeDrawing_inSession _ _ _ _
  | load name picture persistent => exact load_inSession _ _ _ _
  | attempt command event =>
      simp only [perform, world_inSession]
      generalize host.attempt event s.world = result
      obtain ⟨_ | cause, world⟩ := result <;> rfl
  | press button event =>
      by_cases hbutton : host.hasButton button s.world = true
      · simp only [perform, world_inSession, hbutton, if_true]
        rfl
      · simp [perform, hbutton]
  | awaitButton button =>
      by_cases hbutton : host.hasButton button s.world = true <;> simp [perform, hbutton]
  | fullscreen enabled =>
      by_cases hsame : enabled.getD (!host.isFullscreen s.world) = host.isFullscreen s.world
      · simp [perform, hsame]
      · simp only [perform, world_inSession, hsame, if_false]
        rfl
  | spriteGroup name group =>
      simp only [perform, changeGroup, drawings_inSession]
      cases s.drawings.get? name with
      | none => rfl
      | some d => rfl
  | unload name =>
      by_cases hhas : s.drawings.has name = true
      · simp [perform, hhas, inSession]
      · simp [perform, hhas]

theorem carryOut_inSession (host : Host σ) (i : Instruction) (session : Session)
    (s : Interpreter σ τ) :
    (s.inSession session).carryOut host i =
      ((s.carryOut host i).1.inSession session, (s.carryOut host i).2) := by
  rw [carryOut, carryOut]
  cases i.command with
  | custom name =>
      simp only [callHandler_inSession]
      generalize s.callHandler host (fun handler => handler.interpret name i) = result
      obtain ⟨left, _ | _⟩ := result <;> rfl
  | builtin opcode =>
      cases haction : Action.ofInstruction i opcode with
      | error parameter => simp only [haction]
      | ok action => simp only [haction, perform_inSession]

theorem inSession_within {left : Interpreter σ τ} (h : left.session = s.session) :
    left.inSession (s.session.within script k) = left.within script k := by
  rw [within, h]

theorem complete_within (script : List Instruction) (k : Nat) (s : Interpreter σ τ) :
    (s.within script k).complete = (s.complete).within script k := by
  obtain ⟨world, ⟨own, index, _ | p, active⟩, drawings, camera, handler⟩ := s
  · rfl
  · simp only [complete, within, inSession, Session.within, Nat.add_right_comm]

theorem follow_within (script : List Instruction) (k : Nat) (s : Interpreter σ τ) (flow : Flow) :
    (s.within script k).follow flow = (s.follow flow).within script k := by
  cases flow with
  | done =>
      simp only [follow, withSession, within, inSession, Session.within, Nat.add_right_comm]
  | suspend | finish => rfl

theorem dispatch_within (host : Host σ) (i : Instruction) (script : List Instruction) (k : Nat)
    (s : Interpreter σ τ) :
    (s.within script k).dispatch host i =
      ((s.dispatch host i).1.within script k, (s.dispatch host i).2) := by
  have hsession := (carryOut_frame host i s).1
  rw [dispatch, dispatch, within, carryOut_inSession, inSession_within hsession]
  generalize s.carryOut host i = result
  obtain ⟨left, fault | flow⟩ := result
  · rfl
  · simp only [follow_within]

theorem poll_within (host : Host σ) (elapsed : Duration)
    (h : s.session.script = script.drop k) (p : Suspension) :
    (s.within script k).poll host elapsed p =
      ((s.poll host elapsed p).1.within script k, (s.poll host elapsed p).2) := by
  cases p with
  | wait | button | anyButton | drawingPosition | cameraPosition => rfl
  | custom =>
      have hcurrent : (s.within script k).session.current? = s.session.current? :=
        Session.current?_within h
      rw [poll, poll, hcurrent]
      cases s.session.current? with
      | none => rfl
      | some i =>
          have hframe :=
            callHandler_frame host (fun handler => handler.update i.command.name i elapsed) s
          simp only [within, callHandler_inSession]
          rw [inSession_within hframe.1]
          rfl

theorem step_within (host : Host σ) (elapsed : Duration) (h : s.session.script = script.drop k) :
    (s.within script k).step host elapsed =
      ((s.step host elapsed).1.within script k, (s.step host elapsed).2) := by
  have hpending : (s.within script k).session.pending = s.session.pending := rfl
  have hcurrent : (s.within script k).session.current? = s.session.current? :=
    Session.current?_within h
  rw [step, step, hpending, hcurrent]
  cases s.session.pending with
  | some p =>
      simp only [poll_within host elapsed h]
      generalize s.poll host elapsed p = result
      obtain ⟨left, fault | done⟩ := result
      · rfl
      · cases done with
        | false => rfl
        | true => simp only [if_true, complete_within]
  | none =>
      cases s.session.current? with
      | none => rfl
      | some i => exact dispatch_within host i script k s

theorem settle_within (elapsed : Duration) (script : List Instruction) (k : Nat)
    (s : Interpreter σ τ) :
    (s.within script k).settle host elapsed = (s.settle host elapsed).within script k := by
  have hmoved : ((s.within script k).animate host elapsed).1 =
      (s.animate host elapsed).1.within script k := rfl
  have harrivals : ((s.within script k).animate host elapsed).2 = (s.animate host elapsed).2 := rfl
  have hpending : (s.within script k).session.pending = s.session.pending := rfl
  rw [settle, settle, hmoved, harrivals, hpending, complete_within]
  split <;> rfl

theorem update_within (host : Host σ) (elapsed : Duration)
    (h : s.session.script = script.drop k) :
    (s.within script k).update host elapsed =
      ((s.update host elapsed).1.within script k,
        (s.update host elapsed).2.map (CutsceneError.later k)) := by
  cases hactive : s.session.active with
  | false =>
      have hidle : (s.within script k).session.active = false := hactive
      rw [update_of_inactive hactive, update_of_inactive hidle]
      rfl
  | true =>
      have hrunning : (s.within script k).session.active = true := hactive
      have hsettled : (s.settle host elapsed).session.script = script.drop k :=
        move_settle.script.trans h
      rw [update_of_active hactive, update_of_active hrunning, settle_within,
        step_within host elapsed hsettled]
      generalize (s.settle host elapsed).step host elapsed = result
      obtain ⟨left, fault | _⟩ := result <;> rfl

theorem answer_within (host : Host σ) (h : s.session.script = script.drop k) (call : Call σ τ)
    (hcall : call.begins = false) :
    (s.within script k).answer host call = (s.answer host call).within script k := by
  cases call with
  | start | startFile => cases hcall
  | update elapsed => exact congrArg Prod.fst (update_within host elapsed h)
  | draw | finish | release | fire | outside => rfl
  | push button =>
      have hactive : (s.within script k).session.active = s.session.active := rfl
      have hpending : (s.within script k).session.pending = s.session.pending := rfl
      rw [answer, answer, push, push, hactive, hpending, complete_within]
      split <;> rfl

theorem hooks_within (host : Host σ) (h : s.session.script = script.drop k) (call : Call σ τ)
    (hcall : call.begins = false) :
    (s.within script k).hooks host call = s.hooks host call := by
  -- The account that the handler keeps is the same, since it is part of the answer.
  have haudited : (s.audited []).session.script = script.drop k := h
  have hbegins : call.audited.begins = false := by
    cases call with
    | start | startFile => cases hcall
    | update | draw | finish | push | release | fire | outside => rfl
  have hanswer := answer_within host haudited call.audited hbegins
  have hstarted : (s.within script k).audited [] = (s.audited []).within script k := rfl
  rw [hooks, hooks, hstarted, hanswer]
  rfl

theorem run_within (host : Host σ) (h : s.session.script = script.drop k) (calls : List (Call σ τ))
    (hcalls : ∀ call ∈ calls, call.begins = false) :
    (s.within script k).run host calls = (s.run host calls).within script k ∧
      (s.within script k).talk host calls = s.talk host calls := by
  induction calls generalizing s with
  | nil => exact ⟨rfl, rfl⟩
  | cons call calls ih =>
      obtain ⟨hcall, hcalls⟩ := List.forall_mem_cons.mp hcalls
      have hanswer := answer_within host h call hcall
      have hscript : (s.answer host call).session.script = script.drop k :=
        (script_answer call hcall).trans h
      obtain ⟨hrun, htalk⟩ := ih hscript hcalls
      rw [← hanswer] at hrun htalk
      refine ⟨hrun, ?_⟩
      rw [talk, talk, hooks_within host h call hcall, htalk]

/-- The interpreters are in the same state, but that one has `k` more instructions before the
present one. -/
structure Ahead (k : Nat) (s t : Interpreter σ τ) : Prop where
  world : s.world = t.world
  handler : s.handler = t.handler
  drawings : s.drawings = t.drawings
  camera : s.camera = t.camera
  pending : s.session.pending = t.session.pending
  active : s.session.active = t.session.active
  index : s.session.index = t.session.index + k

theorem ahead_within (script : List Instruction) (k : Nat) (s : Interpreter σ τ) :
    Ahead k (s.within script k) s := ⟨rfl, rfl, rfl, rfl, rfl, rfl, rfl⟩

theorem start_eq_within (script : List Instruction) (handler : Option (Handler τ × τ)) (k : Nat)
    (s : Interpreter σ τ) :
    s.start script handler k = (s.start (script.drop k) handler 0).within script k := by
  simp [start, within, inSession, Session.within]

/-- To start a script at an index is to start the script of what comes from there on. After any
calls the two are in the same state but for the index, they have asked the same of the handler, and
the next frame does the same or fails for the same reason. -/
theorem start_drop (host : Host σ) (s : Interpreter σ τ) (script : List Instruction)
    (handler : Option (Handler τ × τ)) (k : Nat) (calls : List (Call σ τ))
    (hcalls : ∀ call ∈ calls, call.begins = false) :
    let whole := s.start script handler k
    let rest := s.start (script.drop k) handler 0
    Ahead k (whole.run host calls) (rest.run host calls) ∧
      whole.talk host calls = rest.talk host calls ∧
      ∀ elapsed, ((whole.run host calls).update host elapsed).2 =
        ((rest.run host calls).update host elapsed).2.map (.later k) := by
  intro whole rest
  have hstarted : whole = rest.within script k := start_eq_within script handler k s
  have hrest : rest.session.script = script.drop k := rfl
  obtain ⟨hrun, htalk⟩ := run_within host hrest calls hcalls
  rw [hstarted, hrun]
  refine ⟨ahead_within _ _ _, htalk, fun elapsed => ?_⟩
  rw [update_within host elapsed ((script_run calls hcalls).trans hrest)]

def haunted : List Instruction :=
  [{ command := .builtin .fin }, { command := .builtin .blockAllInputs },
    { command := .builtin .showDrawing, strings := ["ghost"] }]

theorem start_drop_haunted :
    let fresh : Interpreter Recording Unit := { world := .start ["A"] Recording.defaultResolution }
    let calls : List (Call Recording Unit) := [.update ⟨0⟩, .push "A"]
    let now := (fresh.start haunted none 1).run Recording.host calls
    (∀ call ∈ calls, call.begins = false) ∧
      Ahead 1 now ((fresh.start (haunted.drop 1) none 0).run Recording.host calls) ∧
      (now.update Recording.host ⟨0⟩).2 = some (.instruction 2 (.unknownDrawing "ghost")) := by
  intro fresh calls now
  have hcalls : ∀ call ∈ calls, call.begins = false := by
    simp only [calls, List.forall_mem_cons]
    exact ⟨rfl, rfl, nofun⟩
  obtain ⟨hahead, -, hresult⟩ := start_drop Recording.host fresh haunted none 1 calls hcalls
  refine ⟨hcalls, hahead, (hresult ⟨0⟩).trans ?_⟩
  have hghost : (((fresh.start (haunted.drop 1) none 0).run Recording.host calls).update
      Recording.host ⟨0⟩).2 = some (.instruction 1 (.unknownDrawing "ghost")) := by decide +kernel
  rw [hghost]
  rfl

end Interpreter

end Cutscene
