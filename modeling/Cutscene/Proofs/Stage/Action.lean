import Cutscene.Proofs.Except
import Cutscene.Stage.Action

namespace Cutscene

namespace Opcode

/-- The instructions that change the camera, the one that waits for it included. -/
def movesCamera : Opcode → Bool
  | .cameraX | .cameraY | .cameraVelocityX | .cameraVelocityY | .cameraAccelerationX
  | .cameraAccelerationY | .cameraWaitTillPosition => true
  | _ => false

def changesDrawing : Opcode → Bool
  | .drawingPersistence | .drawingIgnoreCamera | .drawingX | .drawingY | .drawingWidth
  | .drawingHeight | .drawingVelocityX | .drawingVelocityY | .drawingAccelerationX
  | .drawingAccelerationY | .drawingWaitTillPosition | .drawingRotation | .drawingOrigin
  | .drawingLayerDepth | .drawingSpriteEffects | .drawingScaleX | .drawingScaleY | .drawingColor
  | .fadeDrawing | .unfadeDrawing | .showDrawing | .hideDrawing | .maximizeDrawing
  | .changeDrawingSpriteGroup => true
  | _ => false

def loadsDrawing : Opcode → Bool
  | .loadDrawing | .loadImageFromColor => true
  | _ => false

def concernsDrawing (opcode : Opcode) : Bool :=
  opcode.loadsDrawing || opcode == .unloadDrawing || opcode.changesDrawing

def tellsHost : Opcode → Bool
  | .loadSound | .unloadSound | .playSound | .playIndependentSound | .resumeSound | .pauseSound
  | .stopSound | .soundPosition | .soundVolume | .buttonDown | .buttonUp | .pushButton | .blockInput
  | .allowInput | .blockAllInputs | .allowAllInputs | .exitGame | .changeScene | .changeSize
  | .changeResolution | .fullscreen | .forceResizeResolution | .windowTitle => true
  | _ => false

variable {opcode : Opcode}

theorem concernsDrawing_of_tellsHost (h : opcode.tellsHost = true) :
    opcode.concernsDrawing = false := by
  revert h
  cases opcode <;> decide

theorem concernsDrawing_of_reserved (h : opcode.reserved = true) :
    opcode.concernsDrawing = false := by
  revert h
  cases opcode <;> decide

theorem concernsDrawing_of_movesCamera (h : opcode.movesCamera = true) :
    opcode.concernsDrawing = false := by
  revert h
  cases opcode <;> decide

theorem concernsDrawing_of_changesDrawing (h : opcode.changesDrawing = true) :
    opcode.concernsDrawing = true := by
  rw [concernsDrawing, h, Bool.or_true]

end Opcode

namespace Action

/-- What is known of an instruction of this opcode that asks for the action. -/
def ComesFrom (i : Instruction) (opcode : Opcode) : Action → Prop
  | .skip => opcode.reserved = true
  | .finish => opcode = .fin
  | .suspend suspension =>
      (opcode = .wait ∧ ∃ countdown, suspension = .wait countdown) ∨
        (opcode = .waitForAnyButton ∧ suspension = .anyButton)
  | .tell _ | .attempt _ _ | .fullscreen _ | .forceResizeResolution _ => opcode.tellsHost = true
  | .press button _ => opcode.tellsHost = true ∧ i.strings[0]? = some button
  | .awaitButton button => opcode = .waitForButton ∧ i.strings[0]? = some button
  | .load name _ _ =>
      (opcode = .loadDrawing ∨ opcode = .loadImageFromColor) ∧ i.strings[0]? = some name
  | .change name _ | .maximize name | .spriteGroup name _ =>
      opcode.changesDrawing = true ∧ opcode.suspends = false ∧ i.strings[0]? = some name
  | .awaitDrawing name _ => opcode = .drawingWaitTillPosition ∧ i.strings[0]? = some name
  | .unload name => opcode = .unloadDrawing ∧ i.strings[0]? = some name
  | .moveCamera _ => opcode.movesCamera = true ∧ opcode.suspends = false
  | .awaitCamera _ => opcode = .cameraWaitTillPosition
  | .signal group => opcode = .signal ∧ i.strings[0]? = some group

variable {i : Instruction} {opcode : Opcode} {action : Action}

theorem strings_of_string_eq_ok {position : Nat} {s : String} (h : i.string position = .ok s) :
    i.strings[position]? = some s := by
  rw [Instruction.string, Instruction.require] at h
  cases hs : i.strings[position]? with
  | none => rw [hs] at h; cases h
  | some t => rw [hs] at h; cases h; rfl

theorem name_of_bind_eq_ok {next : String → Lookup Action}
    (h : (i.string 0 >>= next) = .ok action) :
    ∃ name, i.strings[0]? = some name ∧ next name = .ok action := by
  obtain ⟨name, hname, hnext⟩ := bind_eq_ok h
  exact ⟨name, strings_of_string_eq_ok hname, hnext⟩

theorem sound_comesFrom {event : String → Event} (ho : opcode.tellsHost = true)
    (h : sound i event = .ok action) : ComesFrom i opcode action := by
  obtain ⟨name, -, h⟩ := name_of_bind_eq_ok h
  cases h
  exact ho

theorem drawing_comesFrom {f : Drawing → Drawing} (ho : opcode.changesDrawing = true)
    (hs : opcode.suspends = false) (h : drawing i f = .ok action) : ComesFrom i opcode action := by
  obtain ⟨name, hname, h⟩ := name_of_bind_eq_ok h
  cases h
  exact ⟨ho, hs, hname⟩

theorem drawingBy_comesFrom {f : Float32 → Drawing → Drawing} (ho : opcode.changesDrawing = true)
    (hs : opcode.suspends = false) (h : drawingBy i f = .ok action) :
    ComesFrom i opcode action := by
  obtain ⟨name, hname, h⟩ := name_of_bind_eq_ok h
  obtain ⟨value, -, h⟩ := bind_eq_ok h
  cases h
  exact ⟨ho, hs, hname⟩

theorem drawingOrigin_comesFrom (h : drawingOrigin i = .ok action) :
    ComesFrom i .drawingOrigin action := by
  obtain ⟨name, hname, h⟩ := name_of_bind_eq_ok h
  cases hanchor : i.strings[1]? with
  | some anchor =>
      rw [hanchor] at h
      cases h
      exact ⟨rfl, rfl, hname⟩
  | none =>
      rw [hanchor] at h
      obtain ⟨origin, -, h⟩ := bind_eq_ok h
      cases h
      exact ⟨rfl, rfl, hname⟩

theorem button_comesFrom {event : String → Event} (ho : opcode.tellsHost = true)
    (h : button i event = .ok action) : ComesFrom i opcode action := by
  obtain ⟨name, hname, h⟩ := name_of_bind_eq_ok h
  cases h
  exact ⟨ho, hname⟩

theorem cameraBy_comesFrom {f : Float32 → Motion → Motion} (ho : opcode.movesCamera = true)
    (hs : opcode.suspends = false) (h : cameraBy i f = .ok action) :
    ComesFrom i opcode action := by
  obtain ⟨value, -, h⟩ := bind_eq_ok h
  cases h
  exact ⟨ho, hs⟩

theorem ofInstruction_comesFrom (h : ofInstruction i opcode = .ok action) :
    ComesFrom i opcode action := by
  cases opcode with
  | wait =>
      obtain ⟨millis, -, h⟩ := bind_eq_ok h
      cases h
      exact Or.inl ⟨rfl, _, rfl⟩
  | waitForAnyButton =>
      cases h
      exact Or.inr ⟨rfl, rfl⟩
  | fin | blockAllInputs | allowAllInputs | exitGame | fullscreen | forceResizeResolution
  | loadFont | stringIndentation | stringAlignment | stringScale | string | message | unloadFont
  | x | y | waitTillPosition | showObject | hideObject | velocityX | velocityY | applyForceX
  | applyForceY | stopForceX | stopForceY | changeSpriteGroup | changeDrawing | enableCollision
  | disableCollision =>
      cases h
      rfl
  | unloadSound | playSound | resumeSound | pauseSound | stopSound | soundPosition =>
      exact sound_comesFrom rfl h
  | windowTitle =>
      obtain ⟨name, -, h⟩ := name_of_bind_eq_ok h
      cases h
      rfl
  | loadSound | playIndependentSound | soundVolume =>
      obtain ⟨name, -, h⟩ := name_of_bind_eq_ok h
      obtain ⟨second, -, h⟩ := bind_eq_ok h
      cases h
      rfl
  | changeSize | changeResolution =>
      obtain ⟨dimensions, -, h⟩ := bind_eq_ok h
      cases h
      rfl
  | changeScene =>
      obtain ⟨scene, -, h⟩ := name_of_bind_eq_ok h
      cases h
      rfl
  | loadDrawing =>
      obtain ⟨name, hname, h⟩ := name_of_bind_eq_ok h
      obtain ⟨path, -, h⟩ := bind_eq_ok h
      cases h
      exact ⟨Or.inl rfl, hname⟩
  | loadImageFromColor =>
      obtain ⟨name, hname, h⟩ := name_of_bind_eq_ok h
      obtain ⟨width, -, h⟩ := bind_eq_ok h
      obtain ⟨height, -, h⟩ := bind_eq_ok h
      obtain ⟨color, -, h⟩ := bind_eq_ok h
      cases h
      exact ⟨Or.inr rfl, hname⟩
  | drawingPersistence | drawingIgnoreCamera | drawingRotation | showDrawing | hideDrawing =>
      exact drawing_comesFrom rfl rfl h
  | drawingX | drawingY | drawingWidth | drawingHeight | drawingVelocityX | drawingVelocityY
  | drawingAccelerationX | drawingAccelerationY | drawingLayerDepth | drawingScaleX | drawingScaleY
  | fadeDrawing | unfadeDrawing =>
      exact drawingBy_comesFrom rfl rfl h
  | drawingOrigin => exact drawingOrigin_comesFrom h
  | drawingSpriteEffects | drawingColor | changeDrawingSpriteGroup =>
      obtain ⟨name, hname, h⟩ := name_of_bind_eq_ok h
      obtain ⟨second, -, h⟩ := bind_eq_ok h
      cases h
      exact ⟨rfl, rfl, hname⟩
  | maximizeDrawing =>
      obtain ⟨name, hname, h⟩ := name_of_bind_eq_ok h
      cases h
      exact ⟨rfl, rfl, hname⟩
  | drawingWaitTillPosition =>
      obtain ⟨name, hname, h⟩ := name_of_bind_eq_ok h
      obtain ⟨target, -, h⟩ := bind_eq_ok h
      cases h
      exact ⟨rfl, hname⟩
  | unloadDrawing | waitForButton | signal =>
      obtain ⟨name, hname, h⟩ := name_of_bind_eq_ok h
      cases h
      exact ⟨rfl, hname⟩
  | buttonDown | buttonUp | pushButton | blockInput | allowInput =>
      exact button_comesFrom rfl h
  | cameraX | cameraY | cameraVelocityX | cameraVelocityY | cameraAccelerationX
  | cameraAccelerationY =>
      exact cameraBy_comesFrom rfl rfl h
  | cameraWaitTillPosition =>
      obtain ⟨target, -, h⟩ := bind_eq_ok h
      cases h
      rfl

def drawing? : Action → Option String
  | .load name _ _ | .change name _ | .awaitDrawing name _ | .maximize name | .spriteGroup name _
  | .unload name => some name
  | _ => none

theorem concernsDrawing_eq (h : ComesFrom i opcode action) :
    opcode.concernsDrawing = action.drawing?.isSome := by
  cases action with
  | skip => exact Opcode.concernsDrawing_of_reserved h
  | tell | attempt | fullscreen | forceResizeResolution =>
      exact Opcode.concernsDrawing_of_tellsHost h
  | press => exact Opcode.concernsDrawing_of_tellsHost h.1
  | moveCamera => exact Opcode.concernsDrawing_of_movesCamera h.1
  | change | maximize | spriteGroup => exact Opcode.concernsDrawing_of_changesDrawing h.1
  | finish | awaitCamera =>
      cases h
      rfl
  | awaitButton | signal | awaitDrawing | unload =>
      obtain ⟨rfl, -⟩ := h
      rfl
  | suspend suspension => obtain ⟨rfl, -⟩ | ⟨rfl, -⟩ := h <;> rfl
  | load name picture persistent => obtain ⟨rfl | rfl, -⟩ := h <;> rfl

def steer : Action → Motion → Motion
  | .moveCamera f, camera => f camera
  | .awaitCamera target, camera => camera.waitFor target
  | _, camera => camera

theorem steer_eq_self (h : ComesFrom i opcode action) (hopcode : opcode.movesCamera = false)
    (camera : Motion) : action.steer camera = camera := by
  cases action with
  | moveCamera =>
      rw [h.1] at hopcode
      cases hopcode
  | awaitCamera =>
      cases h
      cases hopcode
  | skip | finish | suspend | tell | attempt | press | awaitButton | load | change | awaitDrawing
  | maximize | spriteGroup | unload | fullscreen | forceResizeResolution | signal => rfl

theorem strings_of_drawing? {name : String} (h : ComesFrom i opcode action)
    (hname : action.drawing? = some name) : i.strings[0]? = some name := by
  cases action with
  | load | unload | awaitDrawing =>
      cases hname
      exact h.2
  | change | maximize | spriteGroup =>
      cases hname
      exact h.2.2
  | skip | finish | suspend | tell | attempt | press | awaitButton | moveCamera | awaitCamera
  | fullscreen | forceResizeResolution | signal => cases hname

theorem eq_load_of_loadsDrawing (hopcode : opcode.loadsDrawing = true)
    (h : ofInstruction i opcode = .ok action) :
    ∃ name picture, action = .load name picture i.booleans.head? := by
  have hload : opcode = .loadDrawing ∨ opcode = .loadImageFromColor := by
    revert hopcode
    cases opcode <;> decide
  obtain rfl | rfl := hload
  · obtain ⟨name, -, h⟩ := name_of_bind_eq_ok h
    obtain ⟨path, -, h⟩ := bind_eq_ok h
    cases h
    exact ⟨name, _, rfl⟩
  · obtain ⟨name, -, h⟩ := name_of_bind_eq_ok h
    obtain ⟨width, -, h⟩ := bind_eq_ok h
    obtain ⟨height, -, h⟩ := bind_eq_ok h
    obtain ⟨color, -, h⟩ := bind_eq_ok h
    cases h
    exact ⟨name, _, rfl⟩

end Action

end Cutscene
