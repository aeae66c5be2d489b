import Cutscene.Proofs.Stage.Release

namespace Cutscene

variable {σ τ : Type}

inductive Hook where
  | interpret (name : String) (i : Instruction) (answer : Step)
  | update (name : String) (i : Instruction) (elapsed : Duration) (answer : Step)
  | signal (group : String) (i : Instruction)
  deriving DecidableEq

def Hook.answer? : Hook → Option Step
  | .interpret _ _ answer | .update _ _ _ answer => some answer
  | .signal _ _ => none

/-- The same handler with an account of its calls. -/
def Handler.audited (handler : Handler τ) : Handler (τ × List Hook) where
  interpret name i w :=
    let answer := handler.interpret name i w.1
    ⟨answer.step, answer.events, answer.state, w.2 ++ [.interpret name i answer.step]⟩
  update name i elapsed w :=
    let answer := handler.update name i elapsed w.1
    ⟨answer.step, answer.events, answer.state, w.2 ++ [.update name i elapsed answer.step]⟩
  signal group i w :=
    let (events, state) := handler.signal group i w.1
    (events, state, w.2 ++ [.signal group i])

def Call.audited : Call σ τ → Call σ (τ × List Hook)
  | .start script handler index =>
      .start script (handler.map fun (handler, state) => (handler.audited, state, [])) index
  | .startFile bytes handler index =>
      .startFile bytes (handler.map fun (handler, state) => (handler.audited, state, [])) index
  | .update elapsed => .update elapsed
  | .draw => .draw
  | .finish => .finish
  | .push button => .push button
  | .release button => .release button
  | .fire button => .fire button
  | .outside world state => .outside world fun w => (state w.1, w.2)

namespace Interpreter

variable {host : Host σ} {elapsed : Duration} {s : Interpreter σ τ} {i : Instruction}
  {past : List Hook}

def audited (account : List Hook) (s : Interpreter σ τ) : Interpreter σ (τ × List Hook) where
  world := s.world
  session := s.session
  drawings := s.drawings
  camera := s.camera
  handler := s.handler.map fun (handler, state) => (handler.audited, state, account)

def account (s : Interpreter σ (τ × List Hook)) : List Hook :=
  match s.handler with
  | none => []
  | some (_, _, account) => account

def hooks (host : Host σ) (s : Interpreter σ τ) (call : Call σ τ) : List Hook :=
  ((s.audited []).answer host call.audited).account

/-- What each of a sequence of calls asks of the handler. -/
def talk (host : Host σ) (s : Interpreter σ τ) : List (Call σ τ) → List (List Hook)
  | [] => []
  | call :: calls => s.hooks host call :: (s.answer host call).talk host calls

def asked (hook : Handler τ → τ → Answer τ) (entry : Step → Hook) (s : Interpreter σ τ) :
    List Hook :=
  match s.handler with
  | none => []
  | some (handler, state) => [entry (hook handler state).step]

def performHooks (i : Instruction) (s : Interpreter σ τ) : Action → List Hook
  | .signal group => if s.handler.isSome then [.signal group i] else []
  | _ => []

def carryOutHooks (i : Instruction) (s : Interpreter σ τ) : List Hook :=
  match i.command with
  | .custom name => s.asked (fun handler => handler.interpret name i) (.interpret name i)
  | .builtin opcode =>
      match Action.ofInstruction i opcode with
      | .error _ => []
      | .ok action => s.performHooks i action

def pollHooks (elapsed : Duration) (s : Interpreter σ τ) : Suspension → List Hook
  | .custom =>
      match s.session.current? with
      | none => []
      | some i =>
          s.asked (fun handler => handler.update i.command.name i elapsed)
            (.update i.command.name i elapsed)
  | _ => []

def stepHooks (elapsed : Duration) (s : Interpreter σ τ) : List Hook :=
  match s.session.pending with
  | some p => s.pollHooks elapsed p
  | none =>
      match s.session.current? with
      | none => []
      | some i => s.carryOutHooks i

@[simp] theorem world_audited (past : List Hook) (s : Interpreter σ τ) :
    (s.audited past).world = s.world := rfl

@[simp] theorem session_audited (past : List Hook) (s : Interpreter σ τ) :
    (s.audited past).session = s.session := rfl

@[simp] theorem drawings_audited (past : List Hook) (s : Interpreter σ τ) :
    (s.audited past).drawings = s.drawings := rfl

theorem callHandler_audited {hook : Handler τ → τ → Answer τ}
    {hook' : Handler (τ × List Hook) → τ × List Hook → Answer (τ × List Hook)}
    {entry : Step → Hook}
    (h : ∀ handler state past, hook' handler.audited (state, past) =
      ⟨(hook handler state).step, (hook handler state).events, (hook handler state).state,
        past ++ [entry (hook handler state).step]⟩) :
    (s.audited past).callHandler host hook' =
      ((s.callHandler host hook).1.audited (past ++ s.asked hook entry),
        (s.callHandler host hook).2) := by
  obtain ⟨world, session, drawings, camera, _ | ⟨handler, state⟩⟩ := s
  · simp [callHandler, audited, asked]
  · simp only [callHandler, audited, asked, Option.map_some, h]

theorem sendSignal_audited (group : String) :
    (s.audited past).sendSignal host group i =
      (s.sendSignal host group i).audited (past ++ s.performHooks i (.signal group)) := by
  obtain ⟨world, session, drawings, camera, _ | ⟨handler, state⟩⟩ := s <;> rfl

theorem changeDrawing_audited (name : String) (f : Drawing → Drawing) (flow : Flow) :
    (s.audited past).changeDrawing name f flow =
      ((s.changeDrawing name f flow).1.audited past, (s.changeDrawing name f flow).2) := by
  by_cases hhas : s.drawings.has name = true
  · simp [changeDrawing, hhas, audited]
  · simp [changeDrawing, hhas]

theorem load_audited (name : String) (persistent : Option Bool) (picture : Picture) :
    (s.audited past).load host name persistent picture =
      ((s.load host name persistent picture).1.audited past,
        (s.load host name persistent picture).2) := by
  cases picture with
  | image path =>
      simp only [load, world_audited]
      generalize host.attempt (.loadImage path) s.world = result
      obtain ⟨_ | cause, world⟩ := result <;> rfl
  | solid color size => rfl

theorem perform_audited (action : Action) :
    (s.audited past).perform host i action =
      ((s.perform host i action).1.audited (past ++ s.performHooks i action),
        (s.perform host i action).2) := by
  cases action with
  | signal group => simp only [perform, sendSignal_audited]
  | skip | finish | suspend | tell | moveCamera | awaitCamera | forceResizeResolution =>
      simp only [performHooks, List.append_nil]
      rfl
  | change | awaitDrawing | maximize =>
      simp only [performHooks, List.append_nil]
      exact changeDrawing_audited _ _ _
  | attempt command event =>
      simp only [performHooks, List.append_nil, perform, world_audited]
      generalize host.attempt event s.world = result
      obtain ⟨_ | cause, world⟩ := result <;> rfl
  | press button event =>
      by_cases hbutton : host.hasButton button s.world = true
      · simp only [perform, performHooks, world_audited, hbutton, if_true, List.append_nil]
        rfl
      · simp [perform, performHooks, hbutton]
  | awaitButton button =>
      by_cases hbutton : host.hasButton button s.world = true <;>
        simp [perform, performHooks, hbutton]
  | fullscreen enabled =>
      by_cases hsame : enabled.getD (!host.isFullscreen s.world) = host.isFullscreen s.world
      · simp [perform, performHooks, hsame]
      · simp only [perform, performHooks, world_audited, hsame, if_false, List.append_nil]
        rfl
  | load name picture persistent =>
      simp only [performHooks, List.append_nil]
      exact load_audited _ _ _
  | spriteGroup name group =>
      simp only [performHooks, List.append_nil, perform, changeGroup, drawings_audited]
      cases s.drawings.get? name with
      | none => rfl
      | some d => rfl
  | unload name =>
      by_cases hhas : s.drawings.has name = true
      · simp [perform, performHooks, hhas, audited]
      · simp [perform, performHooks, hhas]

theorem carryOut_audited (host : Host σ) (i : Instruction) (past : List Hook)
    (s : Interpreter σ τ) :
    (s.audited past).carryOut host i =
      ((s.carryOut host i).1.audited (past ++ s.carryOutHooks i), (s.carryOut host i).2) := by
  rw [carryOut, carryOut, carryOutHooks]
  cases i.command with
  | custom name =>
      have hcall : (s.audited past).callHandler host
          (fun handler => handler.interpret name i) = _ := callHandler_audited fun _ _ _ => rfl
      simp only [hcall]
      generalize s.callHandler host (fun handler => handler.interpret name i) = result
      obtain ⟨left, _ | _⟩ := result <;> rfl
  | builtin opcode =>
      cases haction : Action.ofInstruction i opcode with
      | error parameter => simp only [haction, List.append_nil]
      | ok action => simp only [haction, perform_audited]

theorem follow_audited (past : List Hook) (s : Interpreter σ τ) (flow : Flow) :
    (s.audited past).follow flow = (s.follow flow).audited past := by
  cases flow <;> rfl

theorem complete_audited (past : List Hook) (s : Interpreter σ τ) :
    (s.audited past).complete = s.complete.audited past := by
  rw [complete, complete, session_audited]
  cases s.session.pending <;> rfl

theorem dispatch_audited (host : Host σ) (i : Instruction) (past : List Hook)
    (s : Interpreter σ τ) :
    (s.audited past).dispatch host i =
      ((s.dispatch host i).1.audited (past ++ s.carryOutHooks i), (s.dispatch host i).2) := by
  rw [dispatch, dispatch, carryOut_audited]
  generalize s.carryOut host i = result
  obtain ⟨left, fault | flow⟩ := result
  · rfl
  · simp only [follow_audited]

theorem poll_audited (host : Host σ) (elapsed : Duration) (past : List Hook) (s : Interpreter σ τ)
    (p : Suspension) :
    (s.audited past).poll host elapsed p =
      ((s.poll host elapsed p).1.audited (past ++ s.pollHooks elapsed p),
        (s.poll host elapsed p).2) := by
  cases p with
  | wait | button | anyButton | drawingPosition | cameraPosition =>
      simp only [pollHooks, List.append_nil]
      rfl
  | custom =>
      rw [poll, poll, pollHooks, session_audited]
      cases s.session.current? with
      | none => simp only [List.append_nil]
      | some i =>
          have hcall : (s.audited past).callHandler host
              (fun handler => handler.update i.command.name i elapsed) = _ :=
            callHandler_audited fun _ _ _ => rfl
          simp only [hcall]

theorem step_audited (host : Host σ) (elapsed : Duration) (past : List Hook)
    (s : Interpreter σ τ) :
    (s.audited past).step host elapsed =
      ((s.step host elapsed).1.audited (past ++ s.stepHooks elapsed), (s.step host elapsed).2) := by
  rw [step, step, stepHooks, session_audited]
  cases s.session.pending with
  | some p =>
      simp only [poll_audited]
      generalize s.poll host elapsed p = result
      obtain ⟨left, fault | done⟩ := result
      · rfl
      · cases done with
        | false => rfl
        | true => simp only [if_true, complete_audited]
  | none =>
      cases s.session.current? with
      | none =>
          simp only [List.append_nil]
          rfl
      | some i => exact dispatch_audited host i past s

theorem settle_audited (elapsed : Duration) (past : List Hook) (s : Interpreter σ τ) :
    (s.audited past).settle host elapsed = (s.settle host elapsed).audited past := by
  have hmoved : ((s.audited past).animate host elapsed).1 =
      (s.animate host elapsed).1.audited past := rfl
  have harrivals : ((s.audited past).animate host elapsed).2 = (s.animate host elapsed).2 := rfl
  rw [settle, settle, hmoved, harrivals, session_audited, complete_audited]
  split <;> rfl

def frameHooks (host : Host σ) (elapsed : Duration) (s : Interpreter σ τ) : List Hook :=
  if s.session.active then (s.settle host elapsed).stepHooks elapsed else []

theorem update_audited (host : Host σ) (elapsed : Duration) (past : List Hook)
    (s : Interpreter σ τ) :
    (s.audited past).update host elapsed =
      ((s.update host elapsed).1.audited (past ++ s.frameHooks host elapsed),
        (s.update host elapsed).2) := by
  rw [frameHooks]
  cases hactive : s.session.active with
  | false =>
      have hidle : (s.audited past).session.active = false := hactive
      rw [update_of_inactive hactive, update_of_inactive hidle]
      simp only [Bool.false_eq_true, if_false, List.append_nil]
      rfl
  | true =>
      have hrunning : (s.audited past).session.active = true := hactive
      rw [update_of_active hactive, update_of_active hrunning, settle_audited, step_audited,
        if_pos rfl]
      generalize (s.settle host elapsed).step host elapsed = result
      obtain ⟨left, fault | _⟩ := result <;> rfl

theorem isSome_handler_step (host : Host σ) (elapsed : Duration) (s : Interpreter σ τ) :
    (conclude (s.step host elapsed)).handler.isSome = s.handler.isSome := by
  rw [step]
  cases s.session.pending with
  | some p =>
      have hpoll := (poll_frame host elapsed s p).2.2
      simp only
      generalize s.poll host elapsed p = result at hpoll ⊢
      obtain ⟨left, fault | done⟩ := result
      · exact hpoll
      · cases done with
        | false => exact hpoll
        | true => exact (congrArg Option.isSome (complete_frame left).2.2.1).trans hpoll
  | none =>
      cases s.session.current? with
      | none => rfl
      | some i =>
          have hcarry := (carryOut_frame host i s).2
          simp only [dispatch]
          generalize s.carryOut host i = result at hcarry ⊢
          obtain ⟨left, fault | flow⟩ := result
          · exact hcarry
          · cases flow <;> exact hcarry

theorem isSome_handler_update (host : Host σ) (elapsed : Duration) (s : Interpreter σ τ) :
    (s.update host elapsed).1.handler.isSome = s.handler.isSome := by
  cases hactive : s.session.active with
  | false =>
      rw [update_of_inactive hactive]
      rfl
  | true =>
      rw [update_fst_of_active hactive, isSome_handler_step, (settle_frame host elapsed s).2.1]

theorem carryOutHooks_of_unhandled (h : s.handler = none) : s.carryOutHooks i = [] := by
  rw [carryOutHooks]
  cases i.command with
  | custom name => simp only [asked, h]
  | builtin opcode =>
      simp only
      cases Action.ofInstruction i opcode with
      | error parameter => rfl
      | ok action => cases action <;> simp [performHooks, h]

theorem frameHooks_of_unhandled (h : s.handler = none) : s.frameHooks host elapsed = [] := by
  have hsettled : (s.settle host elapsed).handler = none := (settle_frame host elapsed s).2.1.trans h
  rw [frameHooks, stepHooks]
  cases s.session.active with
  | false => rfl
  | true =>
      cases (s.settle host elapsed).session.pending with
      | some p =>
          cases p with
          | wait | button | anyButton | drawingPosition | cameraPosition => rfl
          | custom =>
              simp only [pollHooks, asked, hsettled]
              cases (s.settle host elapsed).session.current? <;> rfl
      | none =>
          cases (s.settle host elapsed).session.current? with
          | none => rfl
          | some i => exact carryOutHooks_of_unhandled hsettled

theorem account_audited (past : List Hook) (s : Interpreter σ τ) :
    (s.audited past).account = if s.handler.isSome then past else [] := by
  obtain ⟨world, session, drawings, camera, _ | handler⟩ := s <;> rfl

theorem hooks_update (host : Host σ) (elapsed : Duration) (s : Interpreter σ τ) :
    s.hooks host (.update elapsed) = s.frameHooks host elapsed := by
  rw [hooks, Call.audited, answer, update_audited, account_audited, isSome_handler_update]
  -- Without a handler there is no account, but then there is nothing to be asked either.
  cases hhandler : s.handler with
  | none => rw [frameHooks_of_unhandled hhandler]; rfl
  | some handler => rfl

theorem hooks_of_not_frame {call : Call σ τ} (h : frames [call] = []) : s.hooks host call = [] := by
  obtain ⟨world, session, drawings, camera, handler⟩ := s
  cases call with
  | update elapsed => cases h
  | start script handler' index => cases handler' <;> rfl
  | startFile bytes handler' index =>
      simp only [hooks, Call.audited, answer, startFile]
      cases Script.ofBytes bytes with
      | ok script => cases handler' <;> rfl
      | error cause => cases handler <;> rfl
  | draw | finish | release | fire | outside => cases handler <;> rfl
  | push button =>
      simp only [hooks, Call.audited, answer, push, session_audited, complete_audited]
      split
      · rw [account_audited, ite_self]
      · cases handler <;> rfl

theorem hooks_of_inactive (call : Call σ τ)
    (h : ∀ elapsed ∈ frames [call], s.session.active = false) : s.hooks host call = [] := by
  cases call with
  | update elapsed => rw [hooks_update, frameHooks, h elapsed (List.mem_singleton_self _)]; rfl
  | start | startFile | draw | finish | push | release | fire | outside =>
      exact hooks_of_not_frame rfl

/-- To keep an account of what the handler is asked changes nothing else. -/
theorem answer_audited (host : Host σ) (s : Interpreter σ τ) (call : Call σ τ) :
    (s.audited []).answer host call.audited = (s.answer host call).audited (s.hooks host call) := by
  cases call with
  | update elapsed =>
      rw [hooks_update]
      exact congrArg Prod.fst (update_audited host elapsed [] s)
  | start | draw | finish | release | fire =>
      rw [hooks_of_not_frame rfl]
      rfl
  | startFile bytes handler index =>
      rw [hooks_of_not_frame rfl, answer, startFile]
      simp only [Call.audited, answer, startFile]
      cases Script.ofBytes bytes <;> rfl
  | push button =>
      rw [hooks_of_not_frame rfl]
      simp only [Call.audited, answer, push, session_audited, complete_audited]
      split <;> rfl
  | outside world state =>
      rw [hooks_of_not_frame rfl]
      obtain ⟨world, session, drawings, camera, _ | handler⟩ := s <;> rfl

theorem run_append (host : Host σ) (s : Interpreter σ τ) (before after : List (Call σ τ)) :
    s.run host (before ++ after) = (s.run host before).run host after := List.foldl_append

theorem talk_append (host : Host σ) (s : Interpreter σ τ) (before after : List (Call σ τ)) :
    s.talk host (before ++ after) = s.talk host before ++ (s.run host before).talk host after := by
  induction before generalizing s with
  | nil => rfl
  | cons call before ih => exact congrArg _ (ih (s.answer host call))

theorem Reachable.run (h : Reachable host s) (calls : List (Call σ τ)) :
    Reachable host (s.run host calls) := by
  induction calls generalizing s with
  | nil => exact h
  | cons call calls ih => exact ih (h.answer call)

end Interpreter

end Cutscene
