import Cutscene.Proofs.Stage.Progress
import Cutscene.Proofs.Stage.Registry
import Cutscene.Proofs.Stage.Service

namespace Cutscene

namespace Instruction

def Loads (i : Instruction) (name : String) : Prop :=
  (∃ opcode, i.command = .builtin opcode ∧ opcode.loadsDrawing = true) ∧ i.strings[0]? = some name

def Unloads (i : Instruction) (name : String) : Prop :=
  i.command = .builtin .unloadDrawing ∧ i.strings[0]? = some name

def Concerns (i : Instruction) (name : String) : Prop :=
  (∃ opcode, i.command = .builtin opcode ∧ opcode.concernsDrawing = true) ∧
    i.strings[0]? = some name

def MovesCamera (i : Instruction) : Prop :=
  ∃ opcode, i.command = .builtin opcode ∧ opcode.movesCamera = true

theorem Loads.concerns {i : Instruction} {name : String} (h : i.Loads name) :
    i.Concerns name := by
  obtain ⟨⟨opcode, hcommand, hloads⟩, hname⟩ := h
  refine ⟨⟨opcode, hcommand, ?_⟩, hname⟩
  rw [Opcode.concernsDrawing, hloads, Bool.true_or, Bool.true_or]

end Instruction

namespace Drawing

theorem tickFade_eq (elapsed : Duration) (d : Drawing) :
    ∃ opacity fade, d.tickFade elapsed = { d with opacity, fade } := by
  rw [tickFade]
  split
  · exact ⟨d.opacity, d.fade, rfl⟩
  · simp only
    split
    · exact ⟨_, _, rfl⟩
    · exact ⟨_, _, rfl⟩

theorem visual_advance (elapsed : Duration) (d : Drawing) :
    (d.advance elapsed).1.visual = d.visual := by
  obtain ⟨opacity, fade, hfaded⟩ := tickFade_eq elapsed d
  rw [advance, hfaded]

end Drawing

/-- The same host with an account of the images that time passes for. -/
def Host.clocked {σ : Type} (host : Host σ) : Host (σ × List (Duration × Visual)) where
  tell event w := (host.tell event w.1, w.2)
  attempt event w :=
    let (failure, world) := host.attempt event w.1
    (failure, world, w.2)
  image path w := host.image path w.1
  solid color size w := host.solid color size w.1
  tick elapsed visual w := (host.tick elapsed visual w.1, w.2 ++ [(elapsed, visual)])
  regroup group visual w :=
    let (grouped, world) := host.regroup group visual w.1
    (grouped, world, w.2)
  hasButton button w := host.hasButton button w.1
  isDown button w := host.isDown button w.1
  anyDown w := host.anyDown w.1
  isFullscreen w := host.isFullscreen w.1
  forcesResolution w := host.forcesResolution w.1
  resolution w := host.resolution w.1

namespace Interpreter

variable {σ τ : Type} {host : Host σ} {elapsed : Duration} {s left : Interpreter σ τ}
  {i : Instruction} {name : String}

def CarriesOut (host : Host σ) (elapsed : Duration) (s : Interpreter σ τ) (i : Instruction) :
    Prop :=
  ∃ n, .dispatched n ∈ s.marks host (.update elapsed) ∧ s.session.script[n]? = some i

theorem carriesOut_iff : CarriesOut host elapsed s i ↔ s.session.active = true ∧
    (s.settle host elapsed).session.pending = none ∧
      (s.settle host elapsed).session.current? = some i := by
  have hscript : (s.settle host elapsed).session.script = s.session.script := move_settle.script
  rw [Session.current?, hscript]
  constructor
  · rintro ⟨n, hn, hi⟩
    obtain ⟨hactive, hpending, rfl, -⟩ := (dispatched_mem_marks_iff host elapsed s n).mp hn
    exact ⟨hactive, hpending, hi⟩
  · rintro ⟨hactive, hpending, hi⟩
    have hcurrent : (s.settle host elapsed).session.current? = some i := by
      rw [Session.current?, hscript, hi]
    refine ⟨_, (dispatched_mem_marks_iff host elapsed s _).mpr ⟨hactive, hpending, rfl, i, hi, ?_⟩,
      hi⟩
    rw [update_fst_of_active hactive, step_of_ready hpending hcurrent]

theorem carriesOut_unique {next : Instruction} (h : CarriesOut host elapsed s i)
    (hnext : CarriesOut host elapsed s next) : i = next :=
  Option.some.inj ((carriesOut_iff.mp h).2.2.symm.trans (carriesOut_iff.mp hnext).2.2)

/-- All that becomes of the stage in the second half of a frame. -/
inductive Concludes (host : Host σ) (s : Interpreter σ τ) : Interpreter σ τ → Prop
  /-- The script is still held up, or no longer. -/
  | polled {left : Interpreter σ τ} {p : Suspension} (hpending : s.session.pending = some p)
      (hactive : left.session.active = true) (hdrawings : left.drawings = s.drawings)
      (hcamera : left.camera = s.camera) : Concludes host s left
  /-- An instruction is carried out after which the script goes on. -/
  | carried {left : Interpreter σ τ} {i : Instruction} {flow : Flow}
      (hpending : s.session.pending = none) (hi : s.session.current? = some i)
      (hflow : (s.carryOut host i).2 = .ok flow) (hactive : left.session.active = true)
      (hdrawings : left.drawings = (s.carryOut host i).1.drawings)
      (hcamera : left.camera = (s.carryOut host i).1.camera) : Concludes host s left
  /-- The script ends, by an instruction or for lack of one. -/
  | ended {left : Interpreter σ τ} (hactive : left.session.active = false)
      (hdrawings : left.drawings = s.finish.drawings) (hcamera : left.camera = s.camera) :
      Concludes host s left

theorem carryOut_of_ends (h : ∀ flow, (s.carryOut host i).2 = .ok flow → flow = .finish) :
    (s.carryOut host i).1.drawings = s.drawings ∧ (s.carryOut host i).1.camera = s.camera := by
  -- An instruction ends the script by failing or because that is what it is for.
  cases hresult : (s.carryOut host i).2 with
  | error fault =>
      have hrefused := carryOut_refused hresult
      generalize (s.carryOut host i).1 = left at hrefused ⊢
      cases hrefused <;> exact ⟨rfl, rfl⟩
  | ok flow =>
      obtain rfl := h flow hresult
      cases hcommand : i.command with
      | custom name =>
          rw [(carryOut_of_custom hcommand).2] at hresult
          split at hresult <;> cases hresult
      | builtin opcode =>
          obtain ⟨action, -, hcarry⟩ := carryOut_of_builtin hcommand hresult
          rw [hcarry] at hresult ⊢
          obtain rfl := eq_finish_of_perform hresult
          exact ⟨rfl, rfl⟩

theorem concludes_dispatch (hactive : s.session.active = true) (hpending : s.session.pending = none)
    (hi : s.session.current? = some i) : Concludes host s (conclude (s.dispatch host i)) := by
  have hsession := (carryOut_frame host i s).1
  have hends := @carryOut_of_ends σ τ host s i
  have hcarried (left : Interpreter σ τ) (flow : Flow) :=
    @Concludes.carried σ τ host s left i flow hpending hi
  rw [dispatch]
  generalize s.carryOut host i = result at hsession hends hcarried ⊢
  obtain ⟨left, fault | flow⟩ := result
  · obtain ⟨hdrawings, hcamera⟩ := hends fun flow hflow => by cases hflow
    exact .ended rfl (congrArg (List.filter _) hdrawings) hcamera
  · have hrunning : left.session.active = true := by
      rw [← hactive]
      exact congrArg Session.active hsession
    cases flow with
    | done | suspend => exact hcarried _ _ rfl hrunning rfl rfl
    | finish =>
        obtain ⟨hdrawings, hcamera⟩ := hends fun flow hflow => (Except.ok.inj hflow).symm
        exact .ended rfl (congrArg (List.filter _) hdrawings) hcamera

theorem concludes_step (host : Host σ) (elapsed : Duration) (hactive : s.session.active = true) :
    Concludes host s (conclude (s.step host elapsed)) := by
  rw [step]
  cases hpending : s.session.pending with
  | some p =>
      obtain ⟨hdrawings, hcamera, -⟩ := poll_frame host elapsed s p
      have hrunning : (s.poll host elapsed p).1.session.active = true := by
        rw [session_poll host elapsed hpending]
        exact hactive
      simp only
      generalize s.poll host elapsed p = result at hdrawings hcamera hrunning ⊢
      obtain ⟨left, fault | done⟩ := result
      · exact .ended rfl (congrArg (List.filter _) hdrawings) hcamera
      · cases done with
        | false => exact .polled hpending hrunning hdrawings hcamera
        | true =>
            obtain ⟨hdrawings', hcamera', -, hactive'⟩ := complete_frame left
            exact .polled hpending (hactive'.trans hrunning) (hdrawings'.trans hdrawings)
              (hcamera'.trans hcamera)
  | none =>
      cases hi : s.session.current? with
      | none => exact .ended rfl rfl rfl
      | some i => exact concludes_dispatch hactive hpending hi

theorem concludes_update (host : Host σ) (elapsed : Duration) (h : s.session.active = true) :
    Concludes host (s.settle host elapsed) (s.update host elapsed).1 := by
  rw [update_fst_of_active h]
  exact concludes_step host elapsed (active_settle.trans h)

theorem stage_settle (host : Host σ) (elapsed : Duration) (s : Interpreter σ τ) :
    (s.settle host elapsed).drawings =
        s.drawings.map (fun entry => (entry.1, (entry.2.advance elapsed).1)) ∧
      (s.settle host elapsed).camera = (s.camera.advance elapsed.singleSeconds).1 := by
  rw [settle]
  split
  · obtain ⟨hdrawings, hcamera, -⟩ := complete_frame (s.animate host elapsed).1
    rw [hdrawings, hcamera, animate_eq]
    exact ⟨rfl, rfl⟩
  · rw [animate_eq]
    exact ⟨rfl, rfl⟩

theorem get?_settle (host : Host σ) (elapsed : Duration) (s : Interpreter σ τ) (name : String) :
    (s.settle host elapsed).drawings.get? name =
      (s.drawings.get? name).map fun d => (d.advance elapsed).1 := by
  rw [(stage_settle host elapsed s).1]
  exact Named.get?_map (fun d => (d.advance elapsed).1) name s.drawings

/-- What an instruction after which the script goes on has done to the stage. -/
structure Effect (host : Host σ) (i : Instruction) (s left : Interpreter σ τ) : Prop where
  drawing : ∀ name, ¬ i.Concerns name → left.drawings.get? name = s.drawings.get? name
  concerned : ∀ name, i.Concerns name → ∃ opcode action visual,
    i.command = .builtin opcode ∧ Action.ofInstruction i opcode = .ok action ∧
      left.drawings.get? name =
        action.edit (host.resolution s.world) visual (s.drawings.get? name)
  camera : ¬ i.MovesCamera → left.camera = s.camera
  steered : ∀ opcode action, i.command = .builtin opcode →
    Action.ofInstruction i opcode = .ok action → left.camera = action.steer s.camera

theorem effect_carryOut {flow : Flow} (h : (s.carryOut host i).2 = .ok flow) :
    Effect host i s (s.carryOut host i).1 := by
  cases hcommand : i.command with
  | custom own =>
      obtain ⟨-, hdrawings, hcamera, -⟩ :=
        callHandler_frame host (fun handler => handler.interpret own i) s
      rw [(carryOut_of_custom hcommand).1]
      refine ⟨fun name _ => by rw [hdrawings], ?_, fun _ => hcamera, ?_⟩
      · rintro name ⟨⟨opcode, hbuiltin, -⟩, -⟩
        rw [hcommand] at hbuiltin
        cases hbuiltin
      · intro opcode action hbuiltin
        rw [hcommand] at hbuiltin
        cases hbuiltin
  | builtin opcode =>
      obtain ⟨action, haction, hcarry⟩ := carryOut_of_builtin hcommand h
      have hfrom := Action.ofInstruction_comesFrom haction
      rw [hcarry] at h ⊢
      obtain ⟨visual, hleft⟩ := (perform_redraws h).get?
      have hcamera := (perform_frame host i s action).2.1
      refine ⟨fun name hnot => ?_, ?_, fun hnot => ?_, ?_⟩
      · rw [hleft, if_neg]
        intro hname
        refine hnot ⟨⟨opcode, hcommand, ?_⟩, Action.strings_of_drawing? hfrom hname⟩
        rw [Action.concernsDrawing_eq hfrom, hname]
        rfl
      · rintro name ⟨⟨opcode', hopcode', hconcerns⟩, hname⟩
        obtain rfl : opcode = opcode' := by
          rw [hcommand] at hopcode'
          exact Command.builtin.inj hopcode'
        rw [Action.concernsDrawing_eq hfrom] at hconcerns
        obtain ⟨own, hown⟩ := Option.isSome_iff_exists.mp hconcerns
        have hstring := Action.strings_of_drawing? hfrom hown
        rw [hname] at hstring
        refine ⟨opcode, action, visual, hcommand, haction, ?_⟩
        rw [hleft, if_pos (hown.trans hstring.symm)]
      · rw [hcamera]
        apply Action.steer_eq_self hfrom
        rw [← Bool.not_eq_true]
        exact fun hmoves => hnot ⟨opcode, hcommand, hmoves⟩
      · intro opcode' action' hopcode' haction'
        rw [hcommand] at hopcode'
        cases hopcode'
        rw [haction] at haction'
        cases haction'
        exact hcamera

def GoesOn (s left : Interpreter σ τ) : Prop :=
  s.session.active = true → left.session.active = true

/-- The image is that of a drawing that the instruction of the frame is about. -/
def Regroups (host : Host σ) (elapsed : Duration) (s : Interpreter σ τ) (visual : Visual) : Prop :=
  ∃ i name d, CarriesOut host elapsed s i ∧ i.Concerns name ∧ s.drawings.get? name = some d ∧
    visual = d.visual

/-- What becomes of the stage in a frame. -/
structure Staged (host : Host σ) (elapsed : Duration) (s left : Interpreter σ τ) : Prop where
  /-- Without a script everything moves once, and that is all. -/
  idle : s.session.active = false → left =
    { s with
      world := ticked host elapsed s.drawings s.world
      drawings := s.drawings.map fun entry => (entry.1, (entry.2.advance elapsed).1)
      camera := (s.camera.advance elapsed.singleSeconds).1 }
  /-- While the script goes on, a drawing that no instruction of the frame is about has moved
  once. -/
  drawing : GoesOn s left → ∀ name, (∀ i, CarriesOut host elapsed s i → ¬ i.Concerns name) →
    left.drawings.get? name = (s.drawings.get? name).map fun d => (d.advance elapsed).1
  /-- If an instruction is about it, it has moved once before that, unless it is new. -/
  concerned : GoesOn s left → ∀ i name, CarriesOut host elapsed s i →
    i.Concerns name → ∃ opcode action visual,
      i.command = .builtin opcode ∧ Action.ofInstruction i opcode = .ok action ∧
        left.drawings.get? name =
          action.edit (host.resolution (ticked host elapsed s.drawings s.world)) visual
            ((s.drawings.get? name).map fun d => (d.advance elapsed).1)
  /-- The camera has moved once, too. -/
  camera : (∀ i, CarriesOut host elapsed s i → ¬ i.MovesCamera) →
    left.camera = (s.camera.advance elapsed.singleSeconds).1
  /-- If an instruction moves it, that is after the tick. -/
  steered : GoesOn s left → ∀ i opcode action, CarriesOut host elapsed s i →
    i.command = .builtin opcode → Action.ofInstruction i opcode = .ok action →
      left.camera = action.steer (s.camera.advance elapsed.singleSeconds).1
  /-- When the script ends, the persistent ones of the moved drawings are left. -/
  ended : ¬ GoesOn s left →
    left.drawings =
        (s.drawings.map fun entry => (entry.1, (entry.2.advance elapsed).1)).filter
          (fun entry => entry.2.persistent) ∧
      left.camera = (s.camera.advance elapsed.singleSeconds).1
  /-- Once time has passed for every image, it is left to services to change the world. -/
  served : host.Serves (Regroups host elapsed s) (ticked host elapsed s.drawings s.world) left.world

theorem not_carriesOut_of_inactive (h : s.session.active = false) :
    ¬ CarriesOut host elapsed s i := by
  intro hcarries
  have hactive := (carriesOut_iff.mp hcarries).1
  rw [h] at hactive
  cases hactive

theorem staged_update_of_inactive (host : Host σ) (elapsed : Duration)
    (h : s.session.active = false) : Staged host elapsed s (s.update host elapsed).1 := by
  have hidle : (s.update host elapsed).1 =
      { s with
        world := ticked host elapsed s.drawings s.world
        drawings := s.drawings.map fun entry => (entry.1, (entry.2.advance elapsed).1)
        camera := (s.camera.advance elapsed.singleSeconds).1 } := by
    rw [update_of_inactive h, animate_eq]
  refine ⟨fun _ => hidle, fun _ name _ => ?_, fun _ i name hcarries => ?_, fun _ => ?_,
    fun _ i opcode action hcarries => ?_, fun hends => ?_, ?_⟩
  · rw [hidle]
    exact Named.get?_map (fun d => (d.advance elapsed).1) name s.drawings
  · exact absurd hcarries (not_carriesOut_of_inactive h)
  · rw [hidle]
  · exact absurd hcarries (not_carriesOut_of_inactive h)
  · refine absurd (fun hactive => ?_) hends
    rw [h] at hactive
    cases hactive
  · rw [hidle]
    exact .refl

/-- Only the image of the drawing that the instruction is about is put into another group. -/
theorem serves_update (host : Host σ) (elapsed : Duration) (h : s.session.active = true) :
    host.Serves (Regroups host elapsed s) (ticked host elapsed s.drawings s.world)
      (s.update host elapsed).1.world := by
  rw [update_fst_of_active h, ← (settle_frame host elapsed s).1]
  refine serves_step host elapsed _ fun hpending i opcode action name d hi hcommand haction
    hname hd => ?_
  have hfrom := Action.ofInstruction_comesFrom haction
  have hconcerns : opcode.concernsDrawing = true := by
    rw [Action.concernsDrawing_eq hfrom, hname]
    rfl
  rw [get?_settle] at hd
  obtain ⟨before, hbefore, rfl⟩ := Option.map_eq_some_iff.mp hd
  exact ⟨i, name, before, carriesOut_iff.mpr ⟨h, hpending, hi⟩,
    ⟨⟨opcode, hcommand, hconcerns⟩, Action.strings_of_drawing? hfrom hname⟩, hbefore,
    Drawing.visual_advance elapsed before⟩

theorem staged_update (host : Host σ) (elapsed : Duration) (s : Interpreter σ τ) :
    Staged host elapsed s (s.update host elapsed).1 := by
  cases hactive : s.session.active with
  | false => exact staged_update_of_inactive host elapsed hactive
  | true =>
      have hrunning : ¬ s.session.active = false := by
        rw [hactive]
        exact nofun
      have hworld := (settle_frame host elapsed s).1
      have hserved := serves_update host elapsed hactive
      obtain ⟨hmoved, hcamera⟩ := stage_settle host elapsed s
      have hconcludes := concludes_update host elapsed hactive
      generalize (s.update host elapsed).1 = left at hconcludes hserved
      -- Of the three ways in which a frame ends, each leaves most of the fields nothing to show.
      cases hconcludes with
      | @polled p hpending hlasts hdrawings hcamera' =>
          have hnone (i : Instruction) : ¬ CarriesOut host elapsed s i := by
            intro hcarries
            rw [(carriesOut_iff.mp hcarries).2.1] at hpending
            cases hpending
          refine ⟨fun hidle => absurd hidle hrunning, fun _ name _ => ?_,
            fun _ i name hcarries => absurd hcarries (hnone i), fun _ => hcamera'.trans hcamera,
            fun _ i opcode action hcarries => absurd hcarries (hnone i),
            fun hends => absurd (fun _ => hlasts) hends, hserved⟩
          rw [hdrawings, get?_settle]
      | @carried next flow hpending hnext hflow hlasts hdrawings hcamera' =>
          have hcarries : CarriesOut host elapsed s next :=
            carriesOut_iff.mpr ⟨hactive, hpending, hnext⟩
          obtain ⟨hothers, hconcerned, hstays, hsteered⟩ := effect_carryOut hflow
          rw [hcamera] at hstays hsteered
          refine ⟨fun hidle => absurd hidle hrunning, fun _ name hnot => ?_,
            fun _ i name hi hname => ?_, fun hnot => hcamera'.trans (hstays (hnot next hcarries)),
            fun _ i opcode action hi hcommand haction => ?_,
            fun hends => absurd (fun _ => hlasts) hends, hserved⟩
          · rw [hdrawings, hothers name (hnot next hcarries), get?_settle]
          · rw [carriesOut_unique hi hcarries] at hname ⊢
            obtain ⟨opcode, action, visual, hcommand, haction, hleft⟩ := hconcerned name hname
            rw [hworld, get?_settle] at hleft
            exact ⟨opcode, action, visual, hcommand, haction, hdrawings ▸ hleft⟩
          · rw [carriesOut_unique hi hcarries] at hcommand haction
            exact hcamera'.trans (hsteered opcode action hcommand haction)
      | ended hends hdrawings hcamera' =>
          have hover : ¬ GoesOn s left := by
            intro hlasts
            rw [hlasts hactive] at hends
            cases hends
          refine ⟨fun hidle => absurd hidle hrunning, fun hlasts => absurd hlasts hover,
            fun hlasts => absurd hlasts hover, fun _ => hcamera'.trans hcamera,
            fun hlasts => absurd hlasts hover, fun _ => ⟨?_, hcamera'.trans hcamera⟩, hserved⟩
          rw [hdrawings, ← hmoved]
          rfl

theorem Staged.loads (h : Staged host elapsed s left) (hlasts : GoesOn s left)
    (hnew : s.drawings.has name = false) (hhas : left.drawings.has name = true) :
    ∃ i, CarriesOut host elapsed s i ∧ i.Loads name := by
  rw [Named.has_eq_isSome, Option.isSome_eq_false_iff, Option.isNone_iff_eq_none] at hnew
  obtain ⟨d, hd⟩ := Option.isSome_iff_exists.mp hhas
  by_cases hsome : ∃ i, CarriesOut host elapsed s i ∧ i.Concerns name
  · obtain ⟨i, hi, hconcerns⟩ := hsome
    obtain ⟨opcode, action, visual, hcommand, haction, hleft⟩ :=
      h.concerned hlasts i name hi hconcerns
    rw [hd, hnew] at hleft
    have hloads := Action.loadsDrawing_of_edit (Action.ofInstruction_comesFrom haction) hleft.symm
    exact ⟨i, hi, ⟨opcode, hcommand, hloads⟩, hconcerns.2⟩
  · have hsame := h.drawing hlasts name fun i hi hconcerns => hsome ⟨i, hi, hconcerns⟩
    rw [hd, hnew] at hsame
    cases hsame

theorem Staged.unloads (h : Staged host elapsed s left) (hlasts : GoesOn s left)
    (hhas : s.drawings.has name = true) (hgone : left.drawings.has name = false) :
    ∃ i, CarriesOut host elapsed s i ∧ i.Unloads name := by
  rw [Named.has_eq_isSome, Option.isSome_eq_false_iff, Option.isNone_iff_eq_none] at hgone
  obtain ⟨d, hd⟩ := Option.isSome_iff_exists.mp hhas
  by_cases hsome : ∃ i, CarriesOut host elapsed s i ∧ i.Concerns name
  · obtain ⟨i, hi, hconcerns⟩ := hsome
    obtain ⟨opcode, action, visual, hcommand, haction, hleft⟩ :=
      h.concerned hlasts i name hi hconcerns
    rw [hd, hgone] at hleft
    obtain rfl :=
      Action.eq_unloadDrawing_of_edit (Action.ofInstruction_comesFrom haction) hleft.symm
    exact ⟨i, hi, hcommand, hconcerns.2⟩
  · have hsame := h.drawing hlasts name fun i hi hconcerns => hsome ⟨i, hi, hconcerns⟩
    rw [hd, hgone] at hsame
    cases hsame

theorem Staged.replaced (h : Staged host elapsed s left) (hlasts : GoesOn s left)
    (hi : CarriesOut host elapsed s i) (hloads : i.Loads name) {d : Drawing}
    (hd : s.drawings.get? name = some d) :
    ∃ visual, left.drawings.get? name =
      some (.placed visual i.booleans.head? (some (d.advance elapsed).1)) := by
  obtain ⟨opcode, action, visual, hcommand, haction, hleft⟩ :=
    h.concerned hlasts i name hi hloads.concerns
  obtain ⟨⟨opcode', hcommand', hopcode⟩, -⟩ := hloads
  rw [hcommand] at hcommand'
  cases hcommand'
  obtain ⟨own, picture, rfl⟩ := Action.eq_load_of_loadsDrawing hopcode haction
  rw [hd] at hleft
  exact ⟨visual, hleft⟩

theorem account_ticked (host : Host σ) (elapsed : Duration) (drawings : Named Drawing)
    (w : σ × List (Duration × Visual)) :
    (ticked host.clocked elapsed drawings w).2 =
      w.2 ++ drawings.map fun entry => (elapsed, entry.2.visual) := by
  induction drawings generalizing w with
  | nil => exact (List.append_nil _).symm
  | cons entry rest ih => exact (ih _).trans (List.append_assoc _ _ _)

theorem Staged.account {s left : Interpreter (σ × List (Duration × Visual)) τ}
    (h : Staged host.clocked elapsed s left) :
    left.world.2 = s.world.2 ++ s.drawings.map fun entry => (elapsed, entry.2.visual) := by
  rw [← account_ticked host elapsed s.drawings s.world]
  exact h.served.keeps (f := Prod.snd) (fun _ _ => rfl) (fun _ _ => rfl) (fun _ _ _ => rfl)

/-- In a frame everything on the stage moves once, with or without a script, and every image hears
once that time passes. While the script goes on, names come and go only by the instruction that
loads or unloads them, and a drawing that is loaded anew keeps what does not belong to its image;
when it ends, the persistent drawings stay as they have moved. -/
theorem tick_frame (host : Host σ) (elapsed : Duration) (s : Interpreter σ τ) :
    let left := (s.update host elapsed).1
    Staged host elapsed s left ∧
      (GoesOn s left → ∀ name, s.drawings.has name = false → left.drawings.has name = true →
        ∃ i, CarriesOut host elapsed s i ∧ i.Loads name) ∧
      (GoesOn s left → ∀ name, s.drawings.has name = true → left.drawings.has name = false →
        ∃ i, CarriesOut host elapsed s i ∧ i.Unloads name) ∧
      (GoesOn s left → ∀ i name d, CarriesOut host elapsed s i → i.Loads name →
        s.drawings.get? name = some d →
          let moved := (d.advance elapsed).1
          ∃ visual, left.drawings.get? name = some { moved with
            visual, size := visual.size
            motion := { moved.motion with position := .zero }
            persistent := i.booleans.head?.getD moved.persistent }) ∧
      ∀ t : Interpreter (σ × List (Duration × Visual)) τ,
        (t.update host.clocked elapsed).1.world.2 =
          t.world.2 ++ t.drawings.map fun entry => (elapsed, entry.2.visual) := by
  have hstaged := staged_update host elapsed s
  exact ⟨hstaged, fun hlasts _ hnew hhas => hstaged.loads hlasts hnew hhas,
    fun hlasts _ hhas hgone => hstaged.unloads hlasts hhas hgone,
    fun hlasts _ _ _ hi hloads hd => hstaged.replaced hlasts hi hloads hd,
    fun t => (staged_update host.clocked elapsed t).account⟩

def atReload : Interpreter Recording Unit :=
  let fresh : Interpreter Recording Unit := { world := .start [] Recording.defaultResolution }
  let script : List Instruction :=
    [{ command := .builtin .loadDrawing, strings := ["door", "shut.png"] },
      { command := .builtin .drawingVelocityX, strings := ["door"], uints := [3] },
      { command := .builtin .loadDrawing, strings := ["door", "open.png"], booleans := [true] }]
  fresh.run Recording.host [.start script none 0, .update ⟨0⟩, .update ⟨0⟩]

theorem tick_frame_atReload :
    let reload : Instruction :=
      { command := .builtin .loadDrawing, strings := ["door", "open.png"], booleans := [true] }
    let left := (atReload.update Recording.host ⟨1000000000⟩).1
    GoesOn atReload left ∧ CarriesOut Recording.host ⟨1000000000⟩ atReload reload ∧
      reload.Loads "door" ∧ ∃ d visual, atReload.drawings.get? "door" = some d ∧
        left.drawings.get? "door" =
          some (.placed visual (some true) (some (d.advance ⟨1000000000⟩).1)) := by
  intro reload left
  have hlasts : GoesOn atReload left := fun _ => by decide +kernel
  have hcarries : CarriesOut Recording.host ⟨1000000000⟩ atReload reload :=
    ⟨2, by decide +kernel, by decide +kernel⟩
  have hloads : reload.Loads "door" := ⟨⟨.loadDrawing, rfl, rfl⟩, rfl⟩
  have hhas : atReload.drawings.has "door" = true := by decide +kernel
  obtain ⟨d, hd⟩ := Option.isSome_iff_exists.mp hhas
  obtain ⟨visual, hleft⟩ := (tick_frame Recording.host ⟨1000000000⟩ atReload).2.2.2.1 hlasts reload
    "door" d hcarries hloads hd
  exact ⟨hlasts, hcarries, hloads, d, visual, hd, hleft⟩

end Interpreter

end Cutscene
