import Cutscene.Stage.Host

namespace Cutscene

inductive Suspension where
  | wait (countdown : Countdown)
  | button (name : String)
  | anyButton
  | drawingPosition (name : String)
  | cameraPosition
  | custom
  deriving DecidableEq

inductive Picture where
  | image (path : String)
  | solid (color : Color) (size : Vec)
  deriving DecidableEq

inductive Action where
  | skip
  | finish
  | suspend (suspension : Suspension)
  | tell (event : Event)
  /-- `command` names the instruction in the error if the host fails. -/
  | attempt (command : String) (event : Event)
  /-- Tells about a button that the host must know. -/
  | press (button : String) (event : Event)
  | awaitButton (button : String)
  | load (name : String) (picture : Picture) (persistent : Option Bool)
  | change (name : String) (f : Drawing → Drawing)
  | awaitDrawing (name : String) (target : Vec)
  | maximize (name : String)
  | spriteGroup (name group : String)
  | unload (name : String)
  | moveCamera (f : Motion → Motion)
  | awaitCamera (target : Vec)
  /-- Without a value the present one is turned round. -/
  | fullscreen (enabled : Option Bool)
  | forceResizeResolution (enabled : Option Bool)
  | signal (group : String)

abbrev Lookup (α : Type) := Except MissingParameter α

namespace Instruction

variable (i : Instruction)

def single (position : Nat) : Lookup Float32 := (i.number position).map narrow

def point : Lookup Vec := do
  let x ← i.single 0
  let y ← i.single 1
  pure ⟨x, y⟩

def color : Lookup Color := do
  let r ← i.int 0
  let g ← i.int 1
  let b ← i.int 2
  pure (.ofInts r g b i.ints[3]?)

def volume : Float32 := (i.floats.head?.map (·.toFloat32)).getD 1

end Instruction

namespace Action

variable (i : Instruction)

def sound (event : String → Event) : Lookup Action := do
  let name ← i.string 0
  pure (.tell (event name))

def loadSound : Lookup Action := do
  let name ← i.string 0
  let path ← i.string 1
  pure (.attempt ("LoadSound " ++ name) (.loadSound name path i.strings[2]?))

def playIndependentSound : Lookup Action := do
  let label ← i.string 0
  let path ← i.string 1
  pure (.attempt ("PlayIndependentSound " ++ path)
    (.playIndependentSound label path i.strings[2]? i.volume))

/-- Days, hours, minutes, seconds and milliseconds stand in lists of their own; of the first three
the fraction is dropped. -/
def soundMillis : Float :=
  let days := (i.decimals.head?.map fun d => floatOfInt d.truncate).getD 0
  let hours := (i.doubles.head?.map fun x => truncate x.toFloat).getD 0
  let minutes := (i.floats.head?.map fun x => truncate x.toFloat).getD 0
  let seconds := (i.ints.head?.map fun n => floatOfInt n.toInt).getD 0
  let millis := (i.uints.head?.map fun n => floatOfNat n.toNat).getD 0
  (((days * 24 + hours) * 60 + minutes) * 60 + seconds) * 1000 + millis

def soundVolume : Lookup Action := do
  let name ← i.string 0
  let volume ← i.float 0
  pure (.tell (.soundVolume name volume.toFloat32))

def loadDrawing : Lookup Action := do
  let name ← i.string 0
  let path ← i.string 1
  pure (.load name (.image path) i.booleans.head?)

def loadImageFromColor : Lookup Action := do
  let name ← i.string 0
  let width ← i.float 0
  let height ← i.float 1
  let color ← i.color
  pure (.load name (.solid color ⟨width.toFloat32, height.toFloat32⟩) i.booleans.head?)

def drawing (f : Drawing → Drawing) : Lookup Action := do
  let name ← i.string 0
  pure (.change name f)

def drawingBy (f : Float32 → Drawing → Drawing) : Lookup Action := do
  let name ← i.string 0
  let value ← i.single 0
  pure (.change name (f value))

def motionBy (f : Float32 → Motion → Motion) : Lookup Action :=
  drawingBy i fun value d => { d with motion := f value d.motion }

def awaitDrawingPosition : Lookup Action := do
  let name ← i.string 0
  let target ← i.point
  pure (.awaitDrawing name target)

/-- The first of these that there is: units as a uint or as an int, radians as a double, degrees as
a float. -/
def rotation : Angle :=
  match i.uints.head?, i.ints.head?, i.doubles.head?, i.floats.head? with
  | some units, _, _, _ => ⟨units.toUInt16⟩
  | none, some units, _, _ => ⟨units.toUInt32.toUInt16⟩
  | none, none, some radians, _ => .ofRadians radians.toFloat
  | none, none, none, some degrees => .ofDegrees degrees.toFloat32
  | none, none, none, none => .zero

/-- A second string names an anchor, and one that is unknown changes nothing; otherwise two numbers
give the origin. -/
def drawingOrigin : Lookup Action := do
  let name ← i.string 0
  match i.strings[1]? with
  | some anchor =>
      pure (.change name fun d =>
        match Anchor.ofName? anchor with
        | some anchor => { d with origin := anchor.origin d.size }
        | none => d)
  | none => do
      let origin ← i.point
      pure (.change name fun d => { d with origin })

def drawingEffects : Lookup Action := do
  let name ← i.string 0
  let effects ← i.string 1
  pure (.change name fun d => { d with effects := .ofName effects })

def drawingColor : Lookup Action := do
  let name ← i.string 0
  let color ← i.color
  pure (.change name fun d => { d with color })

def spriteGroupOf : Lookup Action := do
  let name ← i.string 0
  let group ← i.string 1
  pure (.spriteGroup name group)

def button (event : String → Event) : Lookup Action := do
  let name ← i.string 0
  pure (.press name (event name))

def cameraBy (f : Float32 → Motion → Motion) : Lookup Action := do
  let value ← i.single 0
  pure (.moveCamera (f value))

def changeScene : Lookup Action := do
  let scene ← i.string 0
  pure (.attempt ("ChangeScene " ++ scene) (.changeScene scene (i.booleans.head?.getD false)))

def dimensions : Lookup (Int32 × Int32) := do
  let width ← i.number 0
  let height ← i.number 1
  pure (toInt32 width, toInt32 height)

def setPositionX (x : Float32) (m : Motion) : Motion := { m with position := ⟨x, m.position.y⟩ }

def setPositionY (y : Float32) (m : Motion) : Motion := { m with position := ⟨m.position.x, y⟩ }

def setVelocityX (x : Float32) (m : Motion) : Motion := { m with velocity := ⟨x, m.velocity.y⟩ }

def setVelocityY (y : Float32) (m : Motion) : Motion := { m with velocity := ⟨m.velocity.x, y⟩ }

def setAccelerationX (x : Float32) (m : Motion) : Motion :=
  { m with acceleration := ⟨x, m.acceleration.y⟩ }

def setAccelerationY (y : Float32) (m : Motion) : Motion :=
  { m with acceleration := ⟨m.acceleration.x, y⟩ }

/-- What an instruction asks for, or the first parameter that it lacks. -/
def ofInstruction : Opcode → Lookup Action
  | .wait => do
      let millis ← i.number 0
      pure (.suspend (.wait (.start millis.toUInt32)))
  | .fin => pure .finish
  | .loadSound => loadSound i
  | .unloadSound => sound i .unloadSound
  | .playSound => sound i fun name => .playSound name i.volume (i.booleans.head?.getD false)
  | .playIndependentSound => playIndependentSound i
  | .resumeSound => sound i .resumeSound
  | .pauseSound => sound i .pauseSound
  | .stopSound => sound i .stopSound
  | .soundPosition => sound i fun name => .seekSound name (soundMillis i).toUInt64
  | .soundVolume => soundVolume i
  | .loadDrawing => loadDrawing i
  | .loadImageFromColor => loadImageFromColor i
  | .drawingPersistence =>
      drawing i fun d => { d with persistent := i.booleans.head?.getD (!d.persistent) }
  | .drawingIgnoreCamera =>
      drawing i fun d => { d with ignoresCamera := i.booleans.head?.getD (!d.ignoresCamera) }
  | .drawingX => motionBy i setPositionX
  | .drawingY => motionBy i setPositionY
  | .drawingWidth => drawingBy i fun width d => { d with size := ⟨width, d.size.y⟩ }
  | .drawingHeight => drawingBy i fun height d => { d with size := ⟨d.size.x, height⟩ }
  | .drawingVelocityX => motionBy i setVelocityX
  | .drawingVelocityY => motionBy i setVelocityY
  | .drawingAccelerationX => motionBy i setAccelerationX
  | .drawingAccelerationY => motionBy i setAccelerationY
  | .drawingWaitTillPosition => awaitDrawingPosition i
  | .drawingRotation => drawing i fun d => { d with rotation := rotation i }
  | .drawingOrigin => drawingOrigin i
  | .drawingLayerDepth => drawingBy i fun layerDepth d => { d with layerDepth }
  | .drawingSpriteEffects => drawingEffects i
  | .drawingScaleX => drawingBy i fun x d => { d with scale := ⟨x, d.scale.y⟩ }
  | .drawingScaleY => drawingBy i fun y d => { d with scale := ⟨d.scale.x, y⟩ }
  | .drawingColor => drawingColor i
  | .fadeDrawing => drawingBy i fun millis => Drawing.startFade .fadeOut millis.toUInt32
  | .unfadeDrawing => drawingBy i fun millis => Drawing.startFade .fadeIn millis.toUInt32
  | .showDrawing => drawing i fun d => { d with visible := true }
  | .hideDrawing => drawing i fun d => { d with visible := false }
  | .maximizeDrawing => do
      let name ← i.string 0
      pure (.maximize name)
  | .changeDrawingSpriteGroup => spriteGroupOf i
  | .unloadDrawing => do
      let name ← i.string 0
      pure (.unload name)
  | .waitForButton => do
      let name ← i.string 0
      pure (.awaitButton name)
  | .waitForAnyButton => pure (.suspend .anyButton)
  | .buttonDown => button i .buttonDown
  | .buttonUp => button i .buttonUp
  | .pushButton => button i .pushButton
  | .blockInput => button i fun name => .blockInput name true
  | .allowInput => button i fun name => .blockInput name false
  | .blockAllInputs => pure (.tell (.blockAllInputs true))
  | .allowAllInputs => pure (.tell (.blockAllInputs false))
  | .signal => do
      let group ← i.string 0
      pure (.signal group)
  | .cameraX => cameraBy i setPositionX
  | .cameraY => cameraBy i setPositionY
  | .cameraVelocityX => cameraBy i setVelocityX
  | .cameraVelocityY => cameraBy i setVelocityY
  | .cameraAccelerationX => cameraBy i setAccelerationX
  | .cameraAccelerationY => cameraBy i setAccelerationY
  | .cameraWaitTillPosition => do
      let target ← i.point
      pure (.awaitCamera target)
  | .exitGame => pure (.tell .exitGame)
  | .changeScene => changeScene i
  | .changeSize => do
      let (width, height) ← dimensions i
      pure (.tell (.changeSize width height))
  | .changeResolution => do
      let (width, height) ← dimensions i
      pure (.tell (.changeResolution width height (i.booleans.head?.getD true)))
  | .fullscreen => pure (.fullscreen i.booleans.head?)
  | .forceResizeResolution => pure (.forceResizeResolution i.booleans.head?)
  | .windowTitle => do
      let title ← i.string 0
      pure (.tell (.windowTitle title))
  | .loadFont | .stringIndentation | .stringAlignment | .stringScale | .string | .message
  | .unloadFont | .x | .y | .waitTillPosition | .showObject | .hideObject | .velocityX
  | .velocityY | .applyForceX | .applyForceY | .stopForceX | .stopForceY | .changeSpriteGroup
  | .changeDrawing | .enableCollision | .disableCollision => pure .skip

end Action

end Cutscene
