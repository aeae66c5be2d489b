import Cutscene.Proofs.Stage.Suspension

namespace Cutscene

/-- The same host with an account of the calls to its services, and for images to be put into groups,
that have not failed, the latest one first. -/
def Host.audited {σ : Type} (host : Host σ) : Host (σ × List Event) where
  tell event w := (host.tell event w.1, event :: w.2)
  attempt event w :=
    match host.attempt event w.1 with
    | (some cause, world) => (some cause, (world, w.2))
    | (none, world) => (none, (world, event :: w.2))
  image path w := host.image path w.1
  solid color size w := host.solid color size w.1
  tick elapsed visual w := (host.tick elapsed visual w.1, w.2)
  regroup group visual w :=
    let (grouped, world) := host.regroup group visual w.1
    (grouped, world, .spriteGroup visual.label group :: w.2)
  hasButton button w := host.hasButton button w.1
  isDown button w := host.isDown button w.1
  anyDown w := host.anyDown w.1
  isFullscreen w := host.isFullscreen w.1
  forcesResolution w := host.forcesResolution w.1
  resolution w := host.resolution w.1

theorem Host.account_of_attempt {σ : Type} {host : Host σ} {event : Event} {cause : String}
    {w w' : σ × List Event} (h : host.audited.attempt event w = (some cause, w')) :
    w'.2 = w.2 := by
  simp only [Host.audited] at h
  split at h
  · cases h
    rfl
  · cases h

namespace Interpreter

variable {σ τ : Type} {host : Host σ} {elapsed : Duration} {s : Interpreter σ τ}

/-- What is left of a state in which an instruction has failed: either all of it, or all but the
state of a host one of whose services has failed. -/
inductive Refused (host : Host σ) (s : Interpreter σ τ) : Interpreter σ τ → Fault → Prop
  | untouched {fault : Fault} : Refused host s s fault
  | service {command cause : String} {event : Event} {world : σ}
      (h : host.attempt event s.world = (some cause, world)) :
      Refused host s { s with world } (.service command cause)

theorem Refused.session {left : Interpreter σ τ} {fault : Fault} (h : Refused host s left fault) :
    left.session = s.session := by
  cases h <;> rfl

theorem changeDrawing_refused {name : String} {f : Drawing → Drawing} {flow : Flow} {fault : Fault}
    (h : (s.changeDrawing name f flow).2 = .error fault) :
    Refused host s (s.changeDrawing name f flow).1 fault := by
  rw [changeDrawing] at h ⊢
  split at h
  · cases h
  · rename_i hhas
    rw [if_neg hhas]
    exact .untouched

theorem load_refused {name : String} {persistent : Option Bool} {picture : Picture} {fault : Fault}
    (h : (s.load host name persistent picture).2 = .error fault) :
    Refused host s (s.load host name persistent picture).1 fault := by
  cases picture with
  | image path =>
      rw [load] at h ⊢
      split at h
      · rename_i cause world hattempt
        cases h
        exact .service hattempt
      · cases h
  | solid color size => cases h

/-- No action gets as far as an effect before it fails. -/
theorem perform_refused {i : Instruction} {action : Action} {fault : Fault}
    (h : (s.perform host i action).2 = .error fault) :
    Refused host s (s.perform host i action).1 fault := by
  cases action with
  | skip | finish | suspend | tell | moveCamera | awaitCamera | fullscreen | forceResizeResolution
  | signal => cases h
  | attempt command event =>
      simp only [perform] at h ⊢
      split at h
      · rename_i cause world hattempt
        cases h
        exact .service hattempt
      · cases h
  | press button event | awaitButton button =>
      simp only [perform] at h ⊢
      split at h
      · cases h
      · rename_i hbutton
        rw [if_neg hbutton]
        exact .untouched
  | load name picture persistent => exact load_refused h
  | change name f | awaitDrawing name target | maximize name => exact changeDrawing_refused h
  | spriteGroup name group =>
      simp only [perform, changeGroup] at h ⊢
      cases hdrawing : s.drawings.get? name with
      | none => exact .untouched
      | some drawing =>
          rw [hdrawing] at h
          cases h
  | unload name =>
      simp only [perform] at h ⊢
      split at h
      · cases h
      · rename_i hhas
        rw [if_neg hhas]
        exact .untouched

theorem carryOut_refused {i : Instruction} {fault : Fault}
    (h : (s.carryOut host i).2 = .error fault) :
    Refused host s (s.carryOut host i).1 fault := by
  rw [carryOut] at h ⊢
  cases hcommand : i.command with
  | custom name =>
      rw [hcommand] at h
      simp only at h
      split at h <;> cases h
  | builtin opcode =>
      rw [hcommand] at h
      simp only at h ⊢
      cases haction : Action.ofInstruction i opcode with
      | error parameter => exact .untouched
      | ok action =>
          rw [haction] at h
          exact perform_refused h

theorem step_fault (h : s.InStep) {left : Interpreter σ τ} {fault : Fault}
    (hstep : s.step host elapsed = (left, .error fault)) :
    s.session.pending = none ∧ ∃ i, s.session.current? = some i ∧
      s.carryOut host i = (left, .error fault) := by
  cases hpending : s.session.pending with
  | some p =>
      have hok : (s.step host elapsed).2 = .ok () := (h.pollsSafely hpending).step_ok hpending
      rw [hstep] at hok
      cases hok
  | none =>
      rw [step, hpending] at hstep
      cases hi : s.session.current? with
      | none =>
          rw [hi] at hstep
          cases hstep
      | some i =>
          rw [hi] at hstep
          simp only [dispatch] at hstep
          refine ⟨rfl, i, rfl, ?_⟩
          split at hstep
          · cases hstep
          · rename_i hcarry
            cases hstep
            exact hcarry

/-- A frame has failed: the script is ended at the instruction that could not be carried out, in the
state in which it was met. -/
structure Aborted (host : Host σ) (elapsed : Duration) (s : Interpreter σ τ) (e : CutsceneError) :
    Prop where
  /-- The error names the instruction, and the index stays there. -/
  index : e.index? = some (s.update host elapsed).1.session.index ∧
    (s.update host elapsed).1.session.index = (s.settle host elapsed).session.index
  /-- It is an instruction of the script, met with nothing pending. -/
  instruction : s.session.active = true ∧ (s.settle host elapsed).session.pending = none ∧
    ∃ i, s.session.script[(s.settle host elapsed).session.index]? = some i
  /-- No drawing, nor the camera, nor the handler has been touched. -/
  state : (s.update host elapsed).1 =
    { (s.settle host elapsed).finish with world := (s.update host elapsed).1.world }
  /-- Nor has the host after the tick of its images, save by its own service that has failed. -/
  world : (s.update host elapsed).1.world = ticked host elapsed s.drawings s.world ∨
    ∃ event command cause,
      host.attempt event (ticked host elapsed s.drawings s.world) =
        (some cause, (s.update host elapsed).1.world) ∧
      e = .instruction (s.settle host elapsed).session.index (.service command cause)

theorem settle_frame (host : Host σ) (elapsed : Duration) (s : Interpreter σ τ) :
    (s.settle host elapsed).world = ticked host elapsed s.drawings s.world ∧
      (s.settle host elapsed).handler = s.handler ∧
      (s.settle host elapsed).session.script = s.session.script := by
  have hworld : (s.animate host elapsed).1.world = ticked host elapsed s.drawings s.world := by
    rw [animate_eq]
  rw [settle]
  split
  · rw [complete]
    cases (s.animate host elapsed).1.session.pending <;> exact ⟨hworld, rfl, rfl⟩
  · exact ⟨hworld, rfl, rfl⟩

theorem Reachable.aborted (h : Reachable host s) {e : CutsceneError}
    (he : (s.update host elapsed).2 = some e) : Aborted host elapsed s e := by
  have hactive : s.session.active = true := by
    cases hactive : s.session.active with
    | true => rfl
    | false =>
        rw [update_of_inactive hactive] at he
        cases he
  obtain ⟨left, fault, hstep⟩ : ∃ left fault,
      (s.settle host elapsed).step host elapsed = (left, .error fault) := by
    rw [update_of_active hactive] at he
    generalize (s.settle host elapsed).step host elapsed = result at he
    obtain ⟨left, fault | done⟩ := result
    · exact ⟨left, fault, rfl⟩
    · cases he
  have hupdate : s.update host elapsed =
      (left.finish, some (.instruction left.session.index fault)) := by
    rw [update_of_active hactive, hstep]
  obtain ⟨hworld, -, hscript⟩ := settle_frame host elapsed s
  obtain ⟨hpending, i, hi, hcarry⟩ := step_fault h.inStep.settle hstep
  have hrefused : Refused host (s.settle host elapsed) left fault := by
    have hfault := congrArg Prod.snd hcarry
    have hleft := carryOut_refused hfault
    rwa [hcarry] at hleft
  have hindex : left.session.index = (s.settle host elapsed).session.index := by
    rw [hrefused.session]
  rw [hupdate] at he
  cases he
  refine ⟨⟨?_, ?_⟩, ⟨hactive, hpending, i, ?_⟩, ?_, ?_⟩
  · rw [hupdate]
    rfl
  · rw [hupdate]
    exact hindex
  · rw [← hscript]
    exact hi
  · rw [hupdate]
    cases hrefused <;> rfl
  · rw [hupdate, hindex, ← hworld]
    cases hrefused with
    | untouched => exact .inl rfl
    | service hattempt => exact .inr ⟨_, _, _, hattempt, rfl⟩

/-- In whatever state a frame fails, all that remains of it is what it had brought about before it
met the instruction: no call that has not failed reaches the host, and none at all the log of the
recording host, in which nothing fails. -/
theorem failed_update_atomic :
    (∀ (host : Host σ) (s : Interpreter σ τ) (elapsed : Duration) (e : CutsceneError),
      Reachable host s → (s.update host elapsed).2 = some e → Aborted host elapsed s e) ∧
    (∀ (host : Host σ) (s : Interpreter (σ × List Event) τ) (elapsed : Duration)
      (e : CutsceneError), Reachable host.audited s →
      (s.update host.audited elapsed).2 = some e →
      (s.update host.audited elapsed).1.world.2 = s.world.2) ∧
    (∀ (s : Interpreter Recording τ) (elapsed : Duration) (e : CutsceneError),
      Reachable Recording.host s → (s.update Recording.host elapsed).2 = some e →
      (s.update Recording.host elapsed).1 = (s.settle Recording.host elapsed).finish ∧
        (s.update Recording.host elapsed).1.world.events = s.world.events) := by
  refine ⟨fun host s elapsed e h he => h.aborted he, fun host s elapsed e h he => ?_,
    fun s elapsed e h he => ?_⟩
  · have hticked : (ticked host.audited elapsed s.drawings s.world).2 = s.world.2 :=
      ticked_keeps (fun _ _ => rfl) s.drawings s.world
    obtain hworld | ⟨event, command, cause, hattempt, -⟩ := (h.aborted he).world
    · rw [hworld, hticked]
    · rw [Host.account_of_attempt hattempt, hticked]
  · have haborted := h.aborted he
    have hstill : ticked Recording.host elapsed s.drawings s.world = s.world :=
      ticked_of_still Recording.still elapsed s.drawings s.world
    have hworld : (s.update Recording.host elapsed).1.world = s.world := by
      obtain hworld | ⟨event, command, cause, hattempt, -⟩ := haborted.world
      · rw [hworld, hstill]
      · cases hattempt
    refine ⟨?_, by rw [hworld]⟩
    rw [haborted.state, hworld, ← hstill, ← (settle_frame Recording.host elapsed s).1]
    rfl

def atColor : Interpreter Recording Unit :=
  let fresh : Interpreter Recording Unit := { world := .start [] Recording.defaultResolution }
  let script : List Instruction :=
    [{ command := .builtin .cameraWaitTillPosition, uints := [0, 0] },
      { command := .builtin .drawingColor, strings := ["door"], ints := [255, 0] }]
  let started := fresh.answer Recording.host (.start script none 0)
  started.answer Recording.host (.update ⟨0⟩)

def blueMissing : CutsceneError := .instruction 1 (.missing (.ofKind "DrawingColor" .int 2))

theorem failed_update_atomic_atColor :
    Reachable Recording.host atColor ∧
      (atColor.update Recording.host ⟨0⟩).2 = some blueMissing ∧
      Aborted Recording.host ⟨0⟩ atColor blueMissing ∧
      (atColor.update Recording.host ⟨0⟩).1.world.events = atColor.world.events := by
  have hreachable : Reachable Recording.host atColor :=
    ((Reachable.fresh _).answer (.start _ _ _)).answer (.update _)
  have hfails : (atColor.update Recording.host ⟨0⟩).2 = some blueMissing := by decide +kernel
  obtain ⟨haborted, -, hrecording⟩ := failed_update_atomic (σ := Recording) (τ := Unit)
  exact ⟨hreachable, hfails, haborted _ _ _ _ hreachable hfails,
    (hrecording _ _ _ hreachable hfails).2⟩

end Interpreter

end Cutscene
