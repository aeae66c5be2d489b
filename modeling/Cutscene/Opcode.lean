import Cutscene.Text.Case

namespace Cutscene

inductive Opcode where
  | wait | loadSound | unloadSound | playSound | playIndependentSound | resumeSound | pauseSound
  | stopSound | soundPosition | soundVolume | loadDrawing | loadImageFromColor | drawingPersistence
  | drawingIgnoreCamera | drawingX | drawingY | drawingWidth | drawingHeight | drawingVelocityX
  | drawingVelocityY | drawingAccelerationX | drawingAccelerationY | drawingWaitTillPosition
  | drawingRotation | drawingOrigin | drawingLayerDepth | drawingSpriteEffects | drawingScaleX
  | drawingScaleY | drawingColor | fadeDrawing | unfadeDrawing | showDrawing | hideDrawing
  | maximizeDrawing | changeDrawingSpriteGroup | unloadDrawing | loadFont | stringIndentation
  | stringAlignment | stringScale | string | message | unloadFont | waitForButton | waitForAnyButton
  | buttonDown | buttonUp | pushButton | blockInput | allowInput | blockAllInputs | allowAllInputs
  | signal | x | y | waitTillPosition | showObject | hideObject | velocityX | velocityY
  | applyForceX | applyForceY | stopForceX | stopForceY | changeSpriteGroup | changeDrawing
  | enableCollision | disableCollision | cameraX | cameraY | cameraVelocityX | cameraVelocityY
  | cameraAccelerationX | cameraAccelerationY | cameraWaitTillPosition | exitGame | changeScene
  | changeSize | changeResolution | fullscreen | forceResizeResolution | windowTitle | fin
  deriving DecidableEq, Repr

namespace Opcode

def all : List Opcode :=
  [.wait, .loadSound, .unloadSound, .playSound, .playIndependentSound, .resumeSound, .pauseSound,
   .stopSound, .soundPosition, .soundVolume, .loadDrawing, .loadImageFromColor,
   .drawingPersistence, .drawingIgnoreCamera, .drawingX, .drawingY, .drawingWidth, .drawingHeight,
   .drawingVelocityX, .drawingVelocityY, .drawingAccelerationX, .drawingAccelerationY,
   .drawingWaitTillPosition, .drawingRotation, .drawingOrigin, .drawingLayerDepth,
   .drawingSpriteEffects, .drawingScaleX, .drawingScaleY, .drawingColor, .fadeDrawing,
   .unfadeDrawing, .showDrawing, .hideDrawing, .maximizeDrawing, .changeDrawingSpriteGroup,
   .unloadDrawing, .loadFont, .stringIndentation, .stringAlignment, .stringScale, .string,
   .message, .unloadFont, .waitForButton, .waitForAnyButton, .buttonDown, .buttonUp, .pushButton,
   .blockInput, .allowInput, .blockAllInputs, .allowAllInputs, .signal, .x, .y, .waitTillPosition,
   .showObject, .hideObject, .velocityX, .velocityY, .applyForceX, .applyForceY, .stopForceX,
   .stopForceY, .changeSpriteGroup, .changeDrawing, .enableCollision, .disableCollision, .cameraX,
   .cameraY, .cameraVelocityX, .cameraVelocityY, .cameraAccelerationX, .cameraAccelerationY,
   .cameraWaitTillPosition, .exitGame, .changeScene, .changeSize, .changeResolution, .fullscreen,
   .forceResizeResolution, .windowTitle, .fin]

def name : Opcode → String
  | .wait => "Wait"
  | .loadSound => "LoadSound"
  | .unloadSound => "UnloadSound"
  | .playSound => "PlaySound"
  | .playIndependentSound => "PlayIndependentSound"
  | .resumeSound => "ResumeSound"
  | .pauseSound => "PauseSound"
  | .stopSound => "StopSound"
  | .soundPosition => "SoundPosition"
  | .soundVolume => "SoundVolume"
  | .loadDrawing => "LoadDrawing"
  | .loadImageFromColor => "LoadImageFromColor"
  | .drawingPersistence => "DrawingPersistence"
  | .drawingIgnoreCamera => "DrawingIgnoreCamera"
  | .drawingX => "DrawingX"
  | .drawingY => "DrawingY"
  | .drawingWidth => "DrawingWidth"
  | .drawingHeight => "DrawingHeight"
  | .drawingVelocityX => "DrawingVelocityX"
  | .drawingVelocityY => "DrawingVelocityY"
  | .drawingAccelerationX => "DrawingAccelerationX"
  | .drawingAccelerationY => "DrawingAccelerationY"
  | .drawingWaitTillPosition => "DrawingWaitTillPosition"
  | .drawingRotation => "DrawingRotation"
  | .drawingOrigin => "DrawingOrigin"
  | .drawingLayerDepth => "DrawingLayerDepth"
  | .drawingSpriteEffects => "DrawingSpriteEffects"
  | .drawingScaleX => "DrawingScaleX"
  | .drawingScaleY => "DrawingScaleY"
  | .drawingColor => "DrawingColor"
  | .fadeDrawing => "FadeDrawing"
  | .unfadeDrawing => "UnfadeDrawing"
  | .showDrawing => "ShowDrawing"
  | .hideDrawing => "HideDrawing"
  | .maximizeDrawing => "MaximizeDrawing"
  | .changeDrawingSpriteGroup => "ChangeDrawingSpriteGroup"
  | .unloadDrawing => "UnloadDrawing"
  | .loadFont => "LoadFont"
  | .stringIndentation => "StringIndentation"
  | .stringAlignment => "StringAlignment"
  | .stringScale => "StringScale"
  | .string => "String"
  | .message => "Message"
  | .unloadFont => "UnloadFont"
  | .waitForButton => "WaitForButton"
  | .waitForAnyButton => "WaitForAnyButton"
  | .buttonDown => "ButtonDown"
  | .buttonUp => "ButtonUp"
  | .pushButton => "PushButton"
  | .blockInput => "BlockInput"
  | .allowInput => "AllowInput"
  | .blockAllInputs => "BlockAllInputs"
  | .allowAllInputs => "AllowAllInputs"
  | .signal => "Signal"
  | .x => "X"
  | .y => "Y"
  | .waitTillPosition => "WaitTillPosition"
  | .showObject => "Show"
  | .hideObject => "Hide"
  | .velocityX => "VelocityX"
  | .velocityY => "VelocityY"
  | .applyForceX => "ApplyForceX"
  | .applyForceY => "ApplyForceY"
  | .stopForceX => "StopForceX"
  | .stopForceY => "StopForceY"
  | .changeSpriteGroup => "ChangeSpriteGroup"
  | .changeDrawing => "ChangeDrawing"
  | .enableCollision => "EnableCollision"
  | .disableCollision => "DisableCollision"
  | .cameraX => "CameraX"
  | .cameraY => "CameraY"
  | .cameraVelocityX => "CameraVelocityX"
  | .cameraVelocityY => "CameraVelocityY"
  | .cameraAccelerationX => "CameraAccelerationX"
  | .cameraAccelerationY => "CameraAccelerationY"
  | .cameraWaitTillPosition => "CameraWaitTillPosition"
  | .exitGame => "ExitGame"
  | .changeScene => "ChangeScene"
  | .changeSize => "ChangeSize"
  | .changeResolution => "ChangeResolution"
  | .fullscreen => "Fullscreen"
  | .forceResizeResolution => "ForceResizeResolution"
  | .windowTitle => "WindowTitle"
  | .fin => "Fin"

def ordinal : Opcode → UInt8
  | .wait => 1
  | .loadSound => 2
  | .unloadSound => 3
  | .playSound => 4
  | .playIndependentSound => 5
  | .resumeSound => 6
  | .pauseSound => 7
  | .stopSound => 8
  | .soundPosition => 9
  | .soundVolume => 10
  | .loadDrawing => 11
  | .loadImageFromColor => 12
  | .drawingPersistence => 13
  | .drawingIgnoreCamera => 14
  | .drawingX => 15
  | .drawingY => 16
  | .drawingWidth => 17
  | .drawingHeight => 18
  | .drawingVelocityX => 19
  | .drawingVelocityY => 20
  | .drawingAccelerationX => 21
  | .drawingAccelerationY => 22
  | .drawingWaitTillPosition => 23
  | .drawingRotation => 24
  | .drawingOrigin => 25
  | .drawingLayerDepth => 26
  | .drawingSpriteEffects => 27
  | .drawingScaleX => 28
  | .drawingScaleY => 29
  | .drawingColor => 30
  | .fadeDrawing => 31
  | .unfadeDrawing => 32
  | .showDrawing => 33
  | .hideDrawing => 34
  | .maximizeDrawing => 35
  | .changeDrawingSpriteGroup => 36
  | .unloadDrawing => 37
  | .loadFont => 38
  | .stringIndentation => 39
  | .stringAlignment => 40
  | .stringScale => 41
  | .string => 42
  | .message => 43
  | .unloadFont => 44
  | .waitForButton => 45
  | .waitForAnyButton => 46
  | .buttonDown => 47
  | .buttonUp => 48
  | .pushButton => 49
  | .blockInput => 50
  | .allowInput => 51
  | .blockAllInputs => 52
  | .allowAllInputs => 53
  | .signal => 54
  | .x => 55
  | .y => 56
  | .waitTillPosition => 57
  | .showObject => 58
  | .hideObject => 59
  | .velocityX => 60
  | .velocityY => 61
  | .applyForceX => 62
  | .applyForceY => 63
  | .stopForceX => 64
  | .stopForceY => 65
  | .changeSpriteGroup => 66
  | .changeDrawing => 67
  | .enableCollision => 68
  | .disableCollision => 69
  | .cameraX => 70
  | .cameraY => 71
  | .cameraVelocityX => 72
  | .cameraVelocityY => 73
  | .cameraAccelerationX => 74
  | .cameraAccelerationY => 75
  | .cameraWaitTillPosition => 76
  | .exitGame => 77
  | .changeScene => 78
  | .changeSize => 79
  | .changeResolution => 80
  | .fullscreen => 81
  | .forceResizeResolution => 82
  | .windowTitle => 83
  | .fin => 255

def ofOrdinal? (n : UInt8) : Option Opcode := all.find? fun o => o.ordinal == n

/-- The case of ASCII letters in the name is of no account. -/
def ofName? (name : String) : Option Opcode :=
  let folded := Text.foldAscii name
  all.find? fun o => Text.foldAscii o.name == folded

def suspends : Opcode → Bool
  | .wait | .drawingWaitTillPosition | .waitForButton | .waitForAnyButton
  | .cameraWaitTillPosition => true
  | _ => false

/-- Instructions about scene objects and texts, which have no effect in a cutscene. -/
def reserved : Opcode → Bool
  | .loadFont | .stringIndentation | .stringAlignment | .stringScale | .string | .message
  | .unloadFont | .x | .y | .waitTillPosition | .showObject | .hideObject | .velocityX | .velocityY
  | .applyForceX | .applyForceY | .stopForceX | .stopForceY | .changeSpriteGroup | .changeDrawing
  | .enableCollision | .disableCollision => true
  | _ => false

theorem mem_all (o : Opcode) : o ∈ all := by
  cases o <;> decide

theorem ofOrdinal?_ordinal (o : Opcode) : ofOrdinal? o.ordinal = some o := by
  cases o <;> decide

end Opcode

end Cutscene
