import Cutscene.Proofs.Stage.Frame

namespace Cutscene

inductive Touch where
  | fade (direction : FadeDirection) (millis : UInt32)
  | update (elapsed : Duration)
  | replace (visual : Visual)
  | waitFor (target : Vec)
  /-- Any of the other fields are set. -/
  | assign (fields : Drawing)

namespace Touch

def isFade : Touch → Bool
  | .fade .. => true
  | _ => false

def tick? : Touch → Option Duration
  | .update elapsed => some elapsed
  | _ => none

def ticks (touches : List Touch) : List Duration := touches.filterMap tick?

theorem ticks_update (touches : List Touch) (elapsed : Duration) :
    ticks (touches ++ [.update elapsed]) = ticks touches ++ [elapsed] := List.filterMap_append

theorem ticks_of_tick? {touch : Touch} (h : touch.tick? = none) (touches : List Touch) :
    ticks (touches ++ [touch]) = ticks touches := by
  rw [ticks, List.filterMap_append, List.filterMap_cons_none h, List.filterMap_nil, List.append_nil]
  rfl

end Touch

namespace Drawing

def touch (d : Drawing) : Touch → Drawing
  | .fade direction millis => d.startFade direction millis
  | .update elapsed => (d.advance elapsed).1
  | .replace visual => d.replace visual
  | .waitFor target => d.waitFor target
  | .assign fields => { fields with opacity := d.opacity, fade := d.fade }

def touchAll (touches : List Touch) (d : Drawing) : Drawing := touches.foldl touch d

theorem touchAll_append (touches touches' : List Touch) (d : Drawing) :
    d.touchAll (touches ++ touches') = (d.touchAll touches).touchAll touches' := List.foldl_append

theorem touchAll_concat (touches : List Touch) (touch : Touch) (d : Drawing) :
    d.touchAll (touches ++ [touch]) = (d.touchAll touches).touch touch := List.foldl_append

variable {d d' : Drawing}

/-- The drawing has been made of an image and then touched. -/
def Touched (d : Drawing) : Prop := ∃ visual history, d = (ofVisual visual).touchAll history

theorem touched_ofVisual (visual : Visual) : Touched (ofVisual visual) := ⟨visual, [], rfl⟩

theorem Touched.touch (h : Touched d) (touch : Touch) : Touched (d.touch touch) := by
  obtain ⟨visual, history, rfl⟩ := h
  exact ⟨visual, history ++ [touch], (touchAll_concat history touch _).symm⟩

theorem Touched.assign (h : Touched d) (hopacity : d'.opacity = d.opacity)
    (hfade : d'.fade = d.fade) : Touched d' := by
  have hassign := h.touch (.assign d')
  rw [Drawing.touch, ← hopacity, ← hfade] at hassign
  exact hassign

theorem Touched.placed {old : Option Drawing} (h : ∀ d, old = some d → Touched d) (visual : Visual)
    (persistent : Option Bool) : Touched (placed visual persistent old) := by
  cases old with
  | none => exact (touched_ofVisual visual).assign rfl rfl
  | some d => exact ((h d rfl).touch (.replace visual)).assign rfl rfl

end Drawing

namespace Action

open Drawing (Touched)

variable {i : Instruction} {opcode : Opcode} {name : String} {f : Drawing → Drawing}

theorem touched_drawing {g : Drawing → Drawing} (h : drawing i f = .ok (.change name g))
    (hf : ∀ d, Touched d → Touched (f d)) : ∀ d, Touched d → Touched (g d) := by
  obtain ⟨own, -, h⟩ := bind_eq_ok h
  cases h
  exact hf

theorem touched_drawingBy {f : Float32 → Drawing → Drawing} {g : Drawing → Drawing}
    (h : drawingBy i f = .ok (.change name g)) (hf : ∀ value d, Touched d → Touched (f value d)) :
    ∀ d, Touched d → Touched (g d) := by
  obtain ⟨own, -, h⟩ := bind_eq_ok h
  obtain ⟨value, -, h⟩ := bind_eq_ok h
  cases h
  exact hf value

/-- What an instruction changes of a drawing is a field of its own, or the fade. -/
theorem touched_change (h : ofInstruction i opcode = .ok (.change name f)) :
    ∀ d, Touched d → Touched (f d) := by
  have hchanges : opcode.changesDrawing = true := (ofInstruction_comesFrom h).1
  cases opcode with
  | drawingPersistence | drawingIgnoreCamera | drawingRotation | showDrawing | hideDrawing =>
      exact touched_drawing h fun d hd => hd.assign rfl rfl
  | drawingX | drawingY | drawingVelocityX | drawingVelocityY | drawingAccelerationX
  | drawingAccelerationY | drawingWidth | drawingHeight | drawingLayerDepth | drawingScaleX
  | drawingScaleY =>
      exact touched_drawingBy h fun value d hd => hd.assign rfl rfl
  | fadeDrawing =>
      exact touched_drawingBy h fun millis d hd => hd.touch (.fade .fadeOut millis.toUInt32)
  | unfadeDrawing =>
      exact touched_drawingBy h fun millis d hd => hd.touch (.fade .fadeIn millis.toUInt32)
  | drawingOrigin =>
      obtain ⟨own, -, h⟩ := bind_eq_ok h
      split at h
      · cases h
        intro d hd
        split
        · exact hd.assign rfl rfl
        · exact hd
      · obtain ⟨origin, -, h⟩ := bind_eq_ok h
        cases h
        exact fun d hd => hd.assign rfl rfl
  | drawingSpriteEffects | drawingColor =>
      obtain ⟨own, -, h⟩ := bind_eq_ok h
      obtain ⟨value, -, h⟩ := bind_eq_ok h
      cases h
      exact fun d hd => hd.assign rfl rfl
  | maximizeDrawing =>
      obtain ⟨own, -, h⟩ := bind_eq_ok h
      cases h
  | drawingWaitTillPosition | changeDrawingSpriteGroup =>
      obtain ⟨own, -, h⟩ := bind_eq_ok h
      obtain ⟨value, -, h⟩ := bind_eq_ok h
      cases h
  | _ => cases hchanges

theorem touched_edit {action : Action} (h : ofInstruction i opcode = .ok action)
    {resolution : Vec} {visual : Visual} {old : Option Drawing} {d : Drawing}
    (hold : ∀ d, old = some d → Touched d) (hd : action.edit resolution visual old = some d) :
    Touched d := by
  cases action with
  | load name picture persistent =>
      cases hd
      exact .placed hold visual persistent
  | change name f =>
      obtain ⟨before, hbefore, rfl⟩ := Option.map_eq_some_iff.mp hd
      exact touched_change h before (hold before hbefore)
  | awaitDrawing name target =>
      obtain ⟨before, hbefore, rfl⟩ := Option.map_eq_some_iff.mp hd
      exact (hold before hbefore).touch (.waitFor target)
  | maximize name =>
      obtain ⟨before, hbefore, rfl⟩ := Option.map_eq_some_iff.mp hd
      exact (hold before hbefore).assign rfl rfl
  | unload => cases hd
  | spriteGroup | skip | finish | suspend | tell | attempt | press | awaitButton | moveCamera
  | awaitCamera | fullscreen | forceResizeResolution | signal => exact hold d hd

end Action

namespace Interpreter

open Drawing (Touched)

variable {σ τ : Type} {host : Host σ} {elapsed : Duration} {s left : Interpreter σ τ}

theorem Staged.touched (h : Staged host elapsed s left) (hsorted : s.drawings.Sorted)
    (hs : ∀ name d, s.drawings.get? name = some d → Touched d) :
    ∀ name d, left.drawings.get? name = some d → Touched d := by
  intro name d hd
  have hmoved (name : String) (d : Drawing)
      (hd : (s.drawings.get? name).map (fun d => (d.advance elapsed).1) = some d) : Touched d := by
    obtain ⟨before, hbefore, rfl⟩ := Option.map_eq_some_iff.mp hd
    exact (hs name before hbefore).touch (.update elapsed)
  by_cases hlasts : GoesOn s left
  · by_cases hsome : ∃ i, CarriesOut host elapsed s i ∧ i.Concerns name
    · obtain ⟨i, hi, hconcerns⟩ := hsome
      obtain ⟨opcode, action, visual, -, haction, hleft⟩ := h.concerned hlasts i name hi hconcerns
      exact Action.touched_edit haction (hmoved name) (hleft.symm.trans hd)
    · rw [h.drawing hlasts name fun i hi hconcerns => hsome ⟨i, hi, hconcerns⟩] at hd
      exact hmoved name d hd
  · have hmem := Named.mem_of_get?_eq_some hd
    rw [(h.ended hlasts).1] at hmem
    obtain ⟨⟨own, before⟩, hbefore, hentry⟩ := List.mem_map.mp (List.mem_filter.mp hmem).1
    cases hentry
    exact (hs own before (hsorted.get?_of_mem hbefore)).touch (.update elapsed)

theorem Reachable.touched (h : Reachable host s) :
    ∀ name d, s.drawings.get? name = some d → Touched d := by
  induction h with
  | fresh world => exact fun name d hd => by cases hd
  | @answer s h call ih =>
      cases call with
      | start | draw | release | fire | outside => exact ih
      | startFile bytes handler index =>
          rw [Interpreter.answer, startFile]
          cases Script.ofBytes bytes <;> exact ih
      | update elapsed => exact (staged_update host elapsed s).touched h.sorted ih
      | finish =>
          intro name d hd
          have hmem := (List.mem_filter.mp (Named.mem_of_get?_eq_some hd)).1
          exact ih name d (h.sorted.get?_of_mem hmem)
      | push button =>
          rw [Interpreter.answer, push]
          split
          · rw [(complete_frame s).1]
            exact ih
          · exact ih

end Interpreter

end Cutscene
