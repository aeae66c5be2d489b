import Cutscene.Proofs.Stage.Progress
import Cutscene.Proofs.Stage.Registry

namespace Cutscene

namespace Motion

def after (frames : List Duration) (m : Motion) : Motion :=
  frames.foldl (fun m elapsed => m.integrate elapsed.singleSeconds) m

theorem after_concat (frames : List Duration) (elapsed : Duration) (m : Motion) :
    m.after (frames ++ [elapsed]) = (m.after frames).integrate elapsed.singleSeconds :=
  List.foldl_append

theorem after_wait (wait : Option PositionWait) (frames : List Duration) (m : Motion) :
    { m with wait }.after frames = { m.after frames with wait } := by
  induction frames generalizing m with
  | nil => rfl
  | cons elapsed frames ih => exact ih (m.integrate elapsed.singleSeconds)

theorem advance_of_arrived {dt : Float32} {m : Motion} (h : (m.integrate dt).arrived = true) :
    m.advance dt = ((m.integrate dt).cancelWait, true) := if_pos h

theorem advance_of_not_arrived {dt : Float32} {m : Motion} (h : (m.integrate dt).arrived = false) :
    m.advance dt = (m.integrate dt, false) := by
  rw [advance, h]
  rfl

theorem advance_arrived (dt : Float32) (m : Motion) :
    (m.advance dt).2 = (m.integrate dt).arrived := by
  cases h : (m.integrate dt).arrived with
  | true => rw [advance_of_arrived h]
  | false => rw [advance_of_not_arrived h]

theorem arrived_after_waitFor (target : Vec) (frames : List Duration) (m : Motion) :
    ((m.waitFor target).after frames).arrived =
      (PositionWait.capture target m.velocity).reached (m.after frames).position := by
  rw [waitFor, after_wait]
  rfl

end Motion

def Countdown.after (frames : List Duration) (c : Countdown) : Countdown :=
  frames.foldl (fun c elapsed => c.tick elapsed) c

theorem Countdown.after_concat (frames : List Duration) (elapsed : Duration) (c : Countdown) :
    c.after (frames ++ [elapsed]) = (c.after frames).tick elapsed := List.foldl_append

namespace Suspension

def isPlace : Suspension → Bool
  | .drawingPosition _ | .cameraPosition => true
  | _ => false

def afterAll (frames : List Duration) (p : Suspension) : Suspension :=
  frames.foldl (fun p elapsed => p.after elapsed) p

theorem afterAll_concat (frames : List Duration) (elapsed : Duration) (p : Suspension) :
    p.afterAll (frames ++ [elapsed]) = (p.afterAll frames).after elapsed := List.foldl_append

theorem afterAll_wait (frames : List Duration) (countdown : Countdown) :
    (wait countdown).afterAll frames = .wait (countdown.after frames) := by
  induction frames generalizing countdown with
  | nil => rfl
  | cons elapsed frames ih => exact ih (countdown.tick elapsed)

theorem afterAll_of_after {p : Suspension} (h : ∀ elapsed, p.after elapsed = p)
    (frames : List Duration) : p.afterAll frames = p := by
  induction frames with
  | nil => rfl
  | cons elapsed frames ih =>
      rw [afterAll, List.foldl_cons, h]
      exact ih

theorem releasedBy_afterAll (button : String) (frames : List Duration) (p : Suspension) :
    (p.afterAll frames).releasedBy button = p.releasedBy button := by
  cases p with
  | wait countdown => rw [afterAll_wait]; rfl
  | button | anyButton | drawingPosition | cameraPosition | custom =>
      rw [afterAll_of_after fun _ => rfl]

theorem releasedBy_iff (button : String) (p : Suspension) :
    p.releasedBy button = true ↔ p = .anyButton ∨ p = .button button := by
  cases p with
  | button name => simp [releasedBy]
  | wait | anyButton | drawingPosition | cameraPosition | custom => simp [releasedBy]

end Suspension

def Call.continues {σ τ : Type} : Call σ τ → Bool
  | .start .. | .startFile .. | .finish => false
  | _ => true

def frames {σ τ : Type} (calls : List (Call σ τ)) : List Duration :=
  calls.filterMap fun call =>
    match call with
    | .update elapsed => some elapsed
    | _ => none

namespace Interpreter

variable {σ τ : Type} {host : Host σ} {elapsed : Duration} {s met now : Interpreter σ τ}
  {i : Instruction} {p : Suspension} {past : List Duration}

/-- What the instruction waits for comes about in a frame. The instruction was `met` in one state,
and the frame comes `now`, after the frames `past` and in another state. The buttons are looked at
once the images have had their tick. -/
def Due (host : Host σ) (met now : Interpreter σ τ) (i : Instruction) (past : List Duration)
    (elapsed : Duration) : Suspension → Prop
  | .wait _ => ∃ millis, i.number 0 = .ok millis ∧
      ((Countdown.start millis.toUInt32).after (past ++ [elapsed])).finished = true
  | .button name => host.isDown name (ticked host elapsed now.drawings now.world) = true
  | .anyButton => host.anyDown (ticked host elapsed now.drawings now.world) = true
  | .drawingPosition name => ∃ target d, i.point = .ok target ∧ met.drawings.get? name = some d ∧
      (PositionWait.capture target d.motion.velocity).reached
        (d.motion.after (past ++ [elapsed])).position = true
  | .cameraPosition => ∃ target, i.point = .ok target ∧
      (PositionWait.capture target met.camera.velocity).reached
        (met.camera.after (past ++ [elapsed])).position = true
  | .custom => ∃ handler state, now.handler = some (handler, state) ∧
      (handler.update i.command.name i elapsed state).step = .done

/-- A call that ends the suspension. A button can be pushed to do so only if a button is waited
for. -/
def Clears (host : Host σ) (met now : Interpreter σ τ) (i : Instruction) (p : Suspension)
    (past : List Duration) : Call σ τ → Prop
  | .update elapsed => Due host met now i past elapsed p
  | .push button => p = .anyButton ∨ p = .button button
  | _ => False

/-- What is kept of the instruction for as long as it is waited for. -/
def Keeps (met now : Interpreter σ τ) (i : Instruction) (past : List Duration) : Suspension → Prop
  | .wait countdown => ∃ millis, i.number 0 = .ok millis ∧ countdown = .start millis.toUInt32
  | .button _ | .anyButton => True
  | .drawingPosition name => ∃ target d d', i.point = .ok target ∧
      met.drawings.get? name = some d ∧ now.drawings.get? name = some d' ∧
      d'.motion = (d.motion.waitFor target).after past
  | .cameraPosition => ∃ target, i.point = .ok target ∧
      now.camera = (met.camera.waitFor target).after past
  | .custom => now.handler.isSome = true

/-- The script has been held up by the instruction since it was met. -/
structure Held (met now : Interpreter σ τ) (i : Instruction) (p : Suspension)
    (past : List Duration) : Prop where
  active : met.session.active = true
  current : met.session.current? = some i
  session : now.session = { met.session with pending := some (p.afterAll past) }
  keeps : Keeps met now i past p
  sorted : now.drawings.Sorted

theorem Keeps.congr {now' : Interpreter σ τ} (h : Keeps met now i past p)
    (hdrawings : now'.drawings = now.drawings) (hcamera : now'.camera = now.camera)
    (hhandler : now'.handler.isSome = now.handler.isSome) : Keeps met now' i past p := by
  cases p with
  | wait | button | anyButton => exact h
  | drawingPosition name => rw [Keeps, hdrawings]; exact h
  | cameraPosition => rw [Keeps, hcamera]; exact h
  | custom => rw [Keeps, hhandler]; exact h

theorem contains_arrivals_eq {name : String} {d : Drawing} (hsorted : s.drawings.Sorted)
    (hd : s.drawings.get? name = some d) :
    (s.animate host elapsed).2.drawings.contains name = (d.advance elapsed).2 := by
  cases harrived : (d.advance elapsed).2 with
  | true => exact contains_arrivals hd harrived
  | false =>
      rw [← Bool.not_eq_true, List.contains_iff_mem]
      simp only [animate_eq, List.mem_map, List.mem_filter]
      rintro ⟨⟨name, d'⟩, ⟨hmem, harrived'⟩, rfl⟩
      obtain rfl : d' = d := Option.some.inj ((hsorted.get?_of_mem hmem).symm.trans hd)
      rw [harrived] at harrived'
      cases harrived'

/-- An instruction that suspends the script registers its wait as of this moment, over any other
that the drawing or the camera was left with. -/
theorem keeps_carryOut (hflow : (s.carryOut host i).2 = .ok (.suspend p)) :
    Keeps s (s.carryOut host i).1 i [] p := by
  have hawaits := awaits_carryOut hflow
  cases p with
  | button | anyButton => exact trivial
  | custom => exact hawaits.2
  | wait countdown =>
      rw [Awaits] at hawaits
      rw [carryOut, hawaits] at hflow
      cases haction : Action.ofInstruction i .wait with
      | error parameter =>
          simp only [haction] at hflow
          cases hflow
      | ok action =>
          simp only [haction] at hflow
          obtain ⟨millis, hmillis, h⟩ := bind_eq_ok haction
          cases h
          cases hflow
          exact ⟨millis, hmillis, rfl⟩
  | drawingPosition name =>
      obtain ⟨hcommand, hname, d', hd', -⟩ := hawaits
      rw [carryOut, hcommand] at hflow hd' ⊢
      cases haction : Action.ofInstruction i .drawingWaitTillPosition with
      | error parameter =>
          simp only [haction] at hflow
          cases hflow
      | ok action =>
          simp only [haction] at hflow hd' ⊢
          obtain ⟨_, -, h⟩ := bind_eq_ok haction
          obtain ⟨target, htarget, h⟩ := bind_eq_ok h
          cases h
          simp only [perform, changeDrawing] at hflow hd' ⊢
          split at hflow
          · rename_i hhas
            cases hflow
            rw [if_pos hhas] at hd' ⊢
            obtain ⟨d, hd⟩ := Option.isSome_iff_exists.mp hhas
            -- Whatever the drawing waited for before, it is moved as it was, with a new wait.
            have hwaits : (s.drawings.modify name (Drawing.waitFor target)).get? name =
                some (d.waitFor target) := by
              rw [Named.get?_modify, if_pos rfl]
              exact congrArg (Option.map (Drawing.waitFor target)) hd
            exact ⟨target, d, d.waitFor target, htarget, hd, hwaits, rfl⟩
          · cases hflow
  | cameraPosition =>
      rw [carryOut, hawaits.1] at hflow ⊢
      cases haction : Action.ofInstruction i .cameraWaitTillPosition with
      | error parameter =>
          simp only [haction] at hflow
          cases hflow
      | ok action =>
          simp only [haction] at hflow ⊢
          obtain ⟨target, htarget, h⟩ := bind_eq_ok haction
          cases h
          exact ⟨target, htarget, rfl⟩

theorem held_dispatch (hsorted : s.drawings.Sorted) (hactive : s.session.active = true)
    (hpending : s.session.pending = none) (hi : s.session.current? = some i)
    (hp : (conclude (s.dispatch host i)).session.pending = some p) :
    Held s (conclude (s.dispatch host i)) i p [] := by
  have hsession := (carryOut_frame host i s).1
  have hkeeps (q : Suspension) := @keeps_carryOut σ τ host s i q
  have hleft := sorted_carryOut host i hsorted
  rw [dispatch] at hp ⊢
  generalize s.carryOut host i = result at hp hsession hkeeps hleft ⊢
  obtain ⟨left, fault | flow⟩ := result
  · cases hp
  · cases flow with
    | done =>
        change left.session.pending = some p at hp
        rw [hsession, hpending] at hp
        cases hp
    | finish => cases hp
    | suspend q =>
        cases hp
        refine ⟨hactive, hi, ?_, (hkeeps p rfl).congr rfl rfl rfl, hleft⟩
        change { left.session with pending := some p } = _
        rw [hsession]
        rfl

theorem Held.pending (h : Held met now i p past) :
    now.session.pending = some (p.afterAll past) := by
  rw [h.session]

theorem Held.index (h : Held met now i p past) : now.session.index = met.session.index := by
  rw [h.session]

theorem Held.active_now (h : Held met now i p past) : now.session.active = true := by
  rw [h.session]
  exact h.active

theorem Held.current_now (h : Held met now i p past) : now.session.current? = some i := by
  rw [h.session]
  exact h.current

/-- The tick brings the script to its place exactly when it is due. -/
theorem Held.meet_iff (h : Held met now i p past) (host : Host σ) (elapsed : Duration) :
    (now.animate host elapsed).2.meet now.session.pending = true ↔
      p.isPlace = true ∧ Due host met now i past elapsed p := by
  rw [h.pending]
  have hkeeps := h.keeps
  cases p with
  | wait countdown =>
      rw [Suspension.afterAll_wait]
      exact ⟨nofun, nofun⟩
  | button | anyButton | custom =>
      rw [Suspension.afterAll_of_after fun _ => rfl]
      exact ⟨nofun, nofun⟩
  | drawingPosition name =>
      rw [Suspension.afterAll_of_after fun _ => rfl]
      obtain ⟨target, d, d', htarget, hd, hd', hmotion⟩ := hkeeps
      have harrived : (now.animate host elapsed).2.drawings.contains name =
          (PositionWait.capture target d.motion.velocity).reached
            (d.motion.after (past ++ [elapsed])).position := by
        rw [contains_arrivals_eq h.sorted hd', ← Motion.arrived_after_waitFor, Motion.after_concat,
          ← hmotion]
        exact Motion.advance_arrived elapsed.singleSeconds d'.motion
      rw [Arrivals.meet, harrived]
      constructor
      · intro hreached
        exact ⟨rfl, target, d, htarget, hd, hreached⟩
      · rintro ⟨-, target', e, htarget', he, hreached⟩
        obtain rfl : target' = target := Except.ok.inj (htarget'.symm.trans htarget)
        obtain rfl : e = d := Option.some.inj (he.symm.trans hd)
        exact hreached
  | cameraPosition =>
      rw [Suspension.afterAll_of_after fun _ => rfl]
      obtain ⟨target, htarget, hcamera⟩ := hkeeps
      have harrived : (now.animate host elapsed).2.camera =
          (PositionWait.capture target met.camera.velocity).reached
            (met.camera.after (past ++ [elapsed])).position := by
        rw [← Motion.arrived_after_waitFor, Motion.after_concat, ← hcamera]
        exact Motion.advance_arrived elapsed.singleSeconds now.camera
      rw [Arrivals.meet, harrived]
      constructor
      · intro hreached
        exact ⟨rfl, target, htarget, hreached⟩
      · rintro ⟨-, target', htarget', hreached⟩
        obtain rfl : target' = target := Except.ok.inj (htarget'.symm.trans htarget)
        exact hreached

theorem Held.keeps_animate (h : Held met now i p past)
    (hnot : (now.animate host elapsed).2.meet now.session.pending = false) :
    Keeps met (now.animate host elapsed).1 i (past ++ [elapsed]) p := by
  rw [h.pending] at hnot
  have hkeeps := h.keeps
  cases p with
  | wait | button | anyButton | custom => exact hkeeps
  | drawingPosition name =>
      rw [Suspension.afterAll_of_after fun _ => rfl] at hnot
      obtain ⟨target, d, d', htarget, hd, hd', hmotion⟩ := hkeeps
      refine ⟨target, d, (d'.advance elapsed).1, htarget, hd, by rw [get?_animate, hd']; rfl, ?_⟩
      have harrived : (d'.motion.integrate elapsed.singleSeconds).arrived = false := by
        rw [← Motion.advance_arrived]
        exact (contains_arrivals_eq h.sorted hd').symm.trans hnot
      change (d'.motion.advance elapsed.singleSeconds).1 = _
      rw [Motion.advance_of_not_arrived harrived, Motion.after_concat, hmotion]
  | cameraPosition =>
      rw [Suspension.afterAll_of_after fun _ => rfl] at hnot
      obtain ⟨target, htarget, hcamera⟩ := hkeeps
      refine ⟨target, htarget, ?_⟩
      have harrived : (now.camera.integrate elapsed.singleSeconds).arrived = false := by
        rw [← Motion.advance_arrived]
        exact hnot
      change (now.camera.advance elapsed.singleSeconds).1 = _
      rw [Motion.advance_of_not_arrived harrived, Motion.after_concat, hcamera]

/-- The look at a suspension says whether it is due, unless it is for a place, which a tick would
have found. -/
theorem Held.poll (h : Held met now i p past) (host : Host σ)
    (hnot : (now.animate host elapsed).2.meet now.session.pending = false) :
    ∃ done, ((now.animate host elapsed).1.poll host elapsed (p.afterAll past)).2 = .ok done ∧
      (done = true ↔ Due host met now i past elapsed p) := by
  have hkeeps := h.keeps_animate hnot
  have hplace := h.meet_iff host elapsed
  rw [hnot] at hplace
  cases p with
  | wait countdown =>
      rw [Suspension.afterAll_wait]
      refine ⟨_, rfl, ?_⟩
      obtain ⟨millis, hmillis, rfl⟩ := hkeeps
      rw [← Countdown.after_concat]
      constructor
      · intro hfinished
        exact ⟨millis, hmillis, hfinished⟩
      · rintro ⟨millis', hmillis', hfinished⟩
        obtain rfl : millis' = millis := Except.ok.inj (hmillis'.symm.trans hmillis)
        exact hfinished
  | button | anyButton =>
      rw [Suspension.afterAll_of_after fun _ => rfl]
      refine ⟨_, rfl, ?_⟩
      rw [Due, animate_eq]
  | drawingPosition name =>
      rw [Suspension.afterAll_of_after fun _ => rfl]
      obtain ⟨-, -, d', -, -, hd', -⟩ := hkeeps
      have hhas : (now.animate host elapsed).1.drawings.has name = true := by
        rw [Named.has_eq_isSome, hd']
        rfl
      refine ⟨false, ?_, nofun, fun hdue => absurd (hplace.mpr ⟨rfl, hdue⟩) Bool.false_ne_true⟩
      rw [Interpreter.poll, if_pos hhas]
  | cameraPosition =>
      rw [Suspension.afterAll_of_after fun _ => rfl]
      exact ⟨false, rfl, nofun, fun hdue => absurd (hplace.mpr ⟨rfl, hdue⟩) Bool.false_ne_true⟩
  | custom =>
      rw [Suspension.afterAll_of_after fun _ => rfl]
      have hcurrent : (now.animate host elapsed).1.session.current? = some i := h.current_now
      obtain ⟨⟨handler, state⟩, hhandler⟩ := Option.isSome_iff_exists.mp hkeeps
      rw [Interpreter.poll, hcurrent]
      simp only [callHandler, hhandler]
      refine ⟨_, rfl, ?_⟩
      rw [beq_iff_eq]
      constructor
      · intro hdone
        exact ⟨handler, state, hhandler, hdone⟩
      · rintro ⟨handler', state', hhandler', hdone⟩
        obtain ⟨rfl, rfl⟩ := Prod.mk.inj (Option.some.inj (hhandler'.symm.trans hhandler))
        exact hdone

theorem Held.update_of_not_meet (h : Held met now i p past) (host : Host σ)
    (hnot : (now.animate host elapsed).2.meet now.session.pending = false) :
    ∃ left, Held met left i p (past ++ [elapsed]) ∧
      (Due host met now i past elapsed p →
        now.marks host (.update elapsed) = [.completed met.session.index] ∧
          (now.update host elapsed).1 = left.complete) ∧
      (¬ Due host met now i past elapsed p →
        now.marks host (.update elapsed) = [] ∧ (now.update host elapsed).1 = left) := by
  obtain ⟨done, hdone, hiff⟩ := h.poll host hnot
  have hpending : (now.animate host elapsed).1.session.pending = some (p.afterAll past) := h.pending
  have hindex : (now.animate host elapsed).1.session.index = met.session.index := h.index
  have hsession := session_poll host elapsed hpending
  obtain ⟨hdrawings, hcamera, hhandler⟩ :=
    poll_frame host elapsed (now.animate host elapsed).1 (p.afterAll past)
  have hkeeps := (h.keeps_animate hnot).congr hdrawings hcamera hhandler
  have hsorted :
      ((now.animate host elapsed).1.poll host elapsed (p.afterAll past)).1.drawings.Sorted := by
    rw [hdrawings]
    exact sorted_animate h.sorted
  have hmoved : ((now.animate host elapsed).1.poll host elapsed (p.afterAll past)).1.session =
      { met.session with pending := some (p.afterAll (past ++ [elapsed])) } := by
    have hnow : (now.animate host elapsed).1.session =
        { met.session with pending := some (p.afterAll past) } := h.session
    rw [hsession, hnow, Suspension.afterAll_concat]
  have hmarks : now.marks host (.update elapsed) =
      if done then [.completed met.session.index] else [] := by
    rw [marks_update_of_active h.active_now, hnot, settle_of_not_meet hnot, stepMarks, hpending]
    simp only [hdone, hindex]
    cases done <;> rfl
  have hupdate : (now.update host elapsed).1 =
      if done then ((now.animate host elapsed).1.poll host elapsed (p.afterAll past)).1.complete
      else ((now.animate host elapsed).1.poll host elapsed (p.afterAll past)).1 := by
    rw [update_fst_of_active h.active_now, settle_of_not_meet hnot, step, hpending]
    simp only
    generalize (now.animate host elapsed).1.poll host elapsed (p.afterAll past) = result at hdone ⊢
    obtain ⟨left, outcome⟩ := result
    cases hdone
    cases done <;> rfl
  refine ⟨_, ⟨h.active, h.current, hmoved, hkeeps, hsorted⟩, fun hdue => ?_, fun hdue => ?_⟩
  · have hends : done = true := hiff.mpr hdue
    rw [hmarks, hupdate, if_pos hends, if_pos hends]
    exact ⟨rfl, rfl⟩
  · have hlasts : ¬ done = true := fun hends => hdue (hiff.mp hends)
    rw [hmarks, hupdate, if_neg hlasts, if_neg hlasts]
    exact ⟨rfl, rfl⟩

theorem Held.update_of_not_due (h : Held met now i p past)
    (hdue : ¬ Due host met now i past elapsed p) :
    now.marks host (.update elapsed) = [] ∧
      Held met (now.update host elapsed).1 i p (past ++ [elapsed]) := by
  have hnot : (now.animate host elapsed).2.meet now.session.pending = false := by
    rw [← Bool.not_eq_true, h.meet_iff host elapsed]
    exact fun hmet => hdue hmet.2
  obtain ⟨left, hleft, -, hquiet⟩ := h.update_of_not_meet host hnot
  obtain ⟨hmarks, hupdate⟩ := hquiet hdue
  rw [hupdate]
  exact ⟨hmarks, hleft⟩

def passed (session : Session) : Session :=
  { session with pending := none, index := session.index + 1 }

theorem Held.update_of_due (h : Held met now i p past) (hplace : p.isPlace = false)
    (hdue : Due host met now i past elapsed p) :
    now.marks host (.update elapsed) = [.completed met.session.index] ∧
      (now.update host elapsed).1.session = passed met.session := by
  have hnot : (now.animate host elapsed).2.meet now.session.pending = false := by
    rw [← Bool.not_eq_true, h.meet_iff host elapsed, hplace]
    exact fun hmet => Bool.false_ne_true hmet.1
  obtain ⟨left, hleft, hends, -⟩ := h.update_of_not_meet host hnot
  obtain ⟨hmarks, hupdate⟩ := hends hdue
  rw [hupdate, session_complete hleft.pending, hleft.session]
  exact ⟨hmarks, rfl⟩

theorem Held.update_of_met (h : Held met now i p past) (hplace : p.isPlace = true)
    (hdue : Due host met now i past elapsed p) :
    (now.settle host elapsed).session = passed met.session ∧
      now.marks host (.update elapsed) =
        .completed met.session.index :: (now.settle host elapsed).stepMarks host elapsed ∧
      (now.update host elapsed).1 =
        match met.session.script[met.session.index + 1]? with
        | some next => conclude ((now.settle host elapsed).dispatch host next)
        | none => (now.settle host elapsed).finish := by
  have hmeet : (now.animate host elapsed).2.meet now.session.pending = true :=
    (h.meet_iff host elapsed).mpr ⟨hplace, hdue⟩
  have hpending : (now.animate host elapsed).1.session.pending = some (p.afterAll past) := h.pending
  have hmoved : (now.animate host elapsed).1.session =
      { met.session with pending := some (p.afterAll past) } := h.session
  have hsettled : (now.settle host elapsed).session = passed met.session := by
    rw [settle_of_meet hmeet, session_complete hpending, hmoved]
    rfl
  have hnone : (now.settle host elapsed).session.pending = none := by rw [hsettled]; rfl
  have hcurrent : (now.settle host elapsed).session.current? =
      met.session.script[met.session.index + 1]? := by
    rw [hsettled]
    rfl
  refine ⟨hsettled, ?_, ?_⟩
  · rw [marks_update_of_active h.active_now, hmeet, h.index]
    rfl
  · rw [update_fst_of_active h.active_now, step, hnone]
    simp only [hcurrent]
    cases met.session.script[met.session.index + 1]? <;> rfl

theorem Held.push (h : Held met now i p past) (host : Host σ) (button : String) :
    (p.releasedBy button = true →
      now.marks host (.push button) = [.completed met.session.index] ∧
        (now.push button).session = passed met.session) ∧
    (p.releasedBy button = false →
      now.marks host (.push button) = [] ∧ now.push button = now) := by
  rw [marks, Interpreter.push, h.active_now, h.pending, Option.any_some,
    Suspension.releasedBy_afterAll, Bool.true_and]
  constructor
  · intro hreleased
    rw [if_pos hreleased, if_pos hreleased, session_complete h.pending, h.session]
    exact ⟨rfl, rfl⟩
  · intro hreleased
    rw [if_neg (Bool.not_eq_true _ ▸ hreleased), if_neg (Bool.not_eq_true _ ▸ hreleased)]
    exact ⟨rfl, rfl⟩

theorem Held.answer (h : Held met now i p past) {call : Call σ τ} (hcall : call.continues = true)
    (hclears : ¬ Clears host met now i p past call) :
    now.marks host call = [] ∧
      Held met (now.answer host call) i p (past ++ frames [call]) := by
  cases call with
  | start | startFile | finish => cases hcall
  | update elapsed => exact h.update_of_not_due hclears
  | push button =>
      have hreleased : p.releasedBy button = false := by
        rw [← Bool.not_eq_true, Suspension.releasedBy_iff]
        exact hclears
      obtain ⟨hmarks, hpush⟩ := (h.push host button).2 hreleased
      refine ⟨hmarks, ?_⟩
      rw [Interpreter.answer, hpush, frames, List.filterMap_cons_none rfl, List.filterMap_nil,
        List.append_nil]
      exact h
  | draw | release | fire =>
      rw [frames, List.filterMap_cons_none rfl, List.filterMap_nil, List.append_nil]
      exact ⟨rfl, h.active, h.current, h.session, h.keeps.congr rfl rfl rfl, h.sorted⟩
  | outside world state =>
      rw [frames, List.filterMap_cons_none rfl, List.filterMap_nil, List.append_nil]
      exact ⟨rfl, h.active, h.current, h.session, h.keeps.congr rfl rfl Option.isSome_map, h.sorted⟩

theorem frames_append (before after : List (Call σ τ)) :
    frames (before ++ after) = frames before ++ frames after := List.filterMap_append

theorem Held.run (h : Held met now i p past) (calls : List (Call σ τ))
    (hcalls : ∀ call ∈ calls, call.continues = true)
    (hquiet : ∀ before call after, calls = before ++ call :: after →
      ¬ Clears host met (now.run host before) i p (past ++ frames before) call) :
    now.trace host calls = [] ∧ Held met (now.run host calls) i p (past ++ frames calls) := by
  induction calls generalizing now past with
  | nil =>
      rw [frames, List.filterMap_nil, List.append_nil]
      exact ⟨rfl, h⟩
  | cons call calls ih =>
      obtain ⟨hcall, hcalls⟩ := List.forall_mem_cons.mp hcalls
      have hclears := hquiet [] call calls rfl
      rw [frames, List.filterMap_nil, List.append_nil] at hclears
      obtain ⟨hmarks, hheld⟩ := h.answer hcall hclears
      obtain ⟨htrace, hrun⟩ := ih hheld hcalls (by
        intro before next after hsplit
        have hnext := hquiet (call :: before) next after (by rw [hsplit]; rfl)
        rwa [← List.singleton_append, frames_append, ← List.append_assoc] at hnext)
      refine ⟨by rw [trace, hmarks, htrace, List.append_nil], ?_⟩
      rw [← List.singleton_append, frames_append, ← List.append_assoc]
      exact hrun

/-- What a call that ends the suspension does besides. -/
structure Released (host : Host σ) (now : Interpreter σ τ) (p : Suspension) (call : Call σ τ) :
    Prop where
  /-- A frame in which a place is reached goes on to the next instruction at once, or ends the
  script if there is none. -/
  place : ∀ elapsed, call = .update elapsed → p.isPlace = true →
    (now.settle host elapsed).session = passed now.session ∧
      now.marks host call =
        .completed now.session.index :: (now.settle host elapsed).stepMarks host elapsed ∧
      (now.update host elapsed).1 =
        match now.session.script[now.session.index + 1]? with
        | some next => conclude ((now.settle host elapsed).dispatch host next)
        | none => (now.settle host elapsed).finish
  /-- Any other call leaves it to the next frame. -/
  other : p.isPlace = false → now.marks host call = [.completed now.session.index] ∧
    (now.answer host call).session = passed now.session

theorem Held.passed_now (h : Held met now i p past) : passed met.session = passed now.session := by
  rw [h.session]
  rfl

theorem Held.released (h : Held met now i p past) {call : Call σ τ}
    (hclears : Clears host met now i p past call) : Released host now p call := by
  cases call with
  | start | startFile | finish | draw | release | fire | outside => exact hclears.elim
  | update elapsed =>
      refine ⟨?_, fun hplace => ?_⟩
      · intro elapsed hcall hplace
        cases hcall
        have hscript : now.session.script = met.session.script := by rw [h.session]
        rw [hscript, ← h.passed_now, h.index]
        exact h.update_of_met hplace hclears
      · have hdone := h.update_of_due hplace hclears
        rwa [h.passed_now, ← h.index] at hdone
  | push button =>
      have hdone := (h.push host button).1
        ((Suspension.releasedBy_iff button p).mpr hclears)
      rw [h.passed_now, ← h.index] at hdone
      exact ⟨nofun, fun _ => hdone⟩

theorem Held.completed_iff (h : Held met now i p past) (host : Host σ) {call : Call σ τ}
    (hcall : call.continues = true) :
    .completed met.session.index ∈ now.marks host call ↔ Clears host met now i p past call := by
  constructor
  · intro hmem
    apply Classical.byContradiction
    intro hclears
    rw [(h.answer hcall hclears).1] at hmem
    cases hmem
  · intro hclears
    have hreleased := h.released hclears
    rw [← h.index]
    cases hplace : p.isPlace with
    | false =>
        rw [(hreleased.other hplace).1]
        exact List.mem_cons_self
    | true =>
        cases call with
        | update elapsed =>
            rw [(hreleased.place elapsed rfl hplace).2.1]
            exact List.mem_cons_self
        | push button =>
            obtain rfl | rfl := hclears <;> cases hplace
        | start | startFile | finish | draw | release | fire | outside => exact hclears.elim

/-- After a frame that has carried out an instruction and left the script suspended, nothing happens
to the script for as long as no call ends the suspension; and a call ends it exactly when what the
instruction waits for comes about, or the button that it waits for is pushed. -/
theorem Reachable.suspension_clears_when_due (h : Reachable host s) {index : Nat}
    (hdispatched : .dispatched index ∈ s.marks host (.update elapsed))
    (hsuspended : (s.update host elapsed).1.session.pending = some p) :
    ∃ i, s.session.script[index]? = some i ∧
      ∀ calls : List (Call σ τ), (∀ call ∈ calls, call.continues = true) →
        (∀ before call after, calls = before ++ call :: after →
          ¬ Clears host (s.settle host elapsed) ((s.update host elapsed).1.run host before) i p
            (frames before) call) →
        let now := (s.update host elapsed).1.run host calls
        now.session.index = index ∧ now.session.pending = some (p.afterAll (frames calls)) ∧
          now.session.active = true ∧ (s.update host elapsed).1.trace host calls = [] ∧
          ∀ call : Call σ τ, call.continues = true →
            (.completed index ∈ now.marks host call ↔
              Clears host (s.settle host elapsed) now i p (frames calls) call) ∧
            (.completed index ∈ now.marks host call → Released host now p call) := by
  obtain ⟨hactive, hpending, rfl, i, hi, hupdate⟩ :=
    (dispatched_mem_marks_iff host elapsed s index).mp hdispatched
  refine ⟨i, hi, fun calls hcalls hquiet => ?_⟩
  have hmet : (s.settle host elapsed).session.current? = some i := by
    have hscript : (s.settle host elapsed).session.script = s.session.script := move_settle.script
    rw [Session.current?, hscript]
    exact hi
  have hheld : Held (s.settle host elapsed) (s.update host elapsed).1 i p [] := by
    rw [hupdate] at hsuspended ⊢
    exact held_dispatch (sorted_settle _ _ h.sorted) (active_settle.trans hactive) hpending hmet
      hsuspended
  obtain ⟨htrace, hnow⟩ := hheld.run calls hcalls hquiet
  rw [List.nil_append] at hnow
  refine ⟨hnow.index, hnow.pending, hnow.active_now, htrace, fun call hcall => ?_⟩
  have hiff := hnow.completed_iff host hcall
  exact ⟨hiff, fun hmem => hnow.released (hiff.mp hmem)⟩

def atGate : Interpreter Recording Unit :=
  let fresh : Interpreter Recording Unit := { world := .start ["A"] Recording.defaultResolution }
  let script : List Instruction := [{ command := .builtin .waitForButton, strings := ["A"] }]
  fresh.answer Recording.host (.start script none 0)

theorem suspension_clears_when_due_atGate :
    let suspended := (atGate.update Recording.host ⟨0⟩).1
    let calls : List (Call Recording Unit) := [.update ⟨0⟩, .push "B"]
    Reachable Recording.host atGate ∧
      .dispatched 0 ∈ atGate.marks Recording.host (.update ⟨0⟩) ∧
      suspended.session.pending = some (.button "A") ∧
      suspended.trace Recording.host calls = [] ∧
      .completed 0 ∈ (suspended.run Recording.host calls).marks Recording.host (.push "A") := by
  intro suspended calls
  have hreachable : Reachable Recording.host atGate := (Reachable.fresh _).answer (.start _ _ _)
  have hdispatched : .dispatched 0 ∈ atGate.marks Recording.host (.update ⟨0⟩) := by decide +kernel
  have hsuspended : suspended.session.pending = some (.button "A") := by decide +kernel
  obtain ⟨i, -, hclears⟩ := hreachable.suspension_clears_when_due hdispatched hsuspended
  have hcalls : ∀ call ∈ calls, call.continues = true := by
    simp only [calls, List.forall_mem_cons]
    exact ⟨rfl, rfl, nofun⟩
  obtain ⟨-, -, -, htrace, hnext⟩ := hclears calls hcalls (by
    intro before call after hsplit
    change [Call.update ⟨0⟩, Call.push "B"] = _ at hsplit
    obtain _ | ⟨first, _ | ⟨second, before⟩⟩ := before
    · cases hsplit
      change ¬ Recording.host.isDown "A" suspended.world = true
      decide +kernel
    · cases hsplit
      rintro (hany | hbutton)
      · cases hany
      · exact absurd (Suspension.button.inj hbutton) (by decide)
    · simp at hsplit)
  exact ⟨hreachable, hdispatched, hsuspended, htrace, (hnext (.push "A") rfl).1.mpr (.inr rfl)⟩

end Interpreter

end Cutscene
