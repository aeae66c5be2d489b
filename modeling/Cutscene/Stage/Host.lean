import Cutscene.Stage.Drawing

namespace Cutscene

inductive Event where
  | loadSound (name path : String) (loopPath : Option String)
  | unloadSound (name : String)
  | playSound (name : String) (volume : Float32) (unloadOnFinish : Bool)
  | playIndependentSound (label path : String) (loopPath : Option String) (volume : Float32)
  | resumeSound (name : String)
  | pauseSound (name : String)
  | stopSound (name : String)
  | seekSound (name : String) (millis : UInt64)
  | soundVolume (name : String) (volume : Float32)
  | buttonDown (button : String)
  | buttonUp (button : String)
  | pushButton (button : String)
  | blockInput (button : String) (blocked : Bool)
  | blockAllInputs (blocked : Bool)
  | buttonPressed (button : String)
  | loadImage (path : String)
  | solidColor (color : Color) (size : Vec)
  | spriteGroup (visual group : String)
  | draw (visual : String) (params : DrawParams)
  | exitGame
  | changeScene (scene : String) (anew : Bool)
  | changeSize (width height : Int32)
  | changeResolution (width height : Int32) (changeSize : Bool)
  | fullscreen (enabled : Bool)
  | forceResizeResolution (enabled : Bool)
  | windowTitle (title : String)
  | custom (name : String)
  | signal (group : String)
  deriving DecidableEq

structure Host (σ : Type) where
  tell : Event → σ → σ
  /-- Tells what may fail, and gives the reason if it does. -/
  attempt : Event → σ → Option String × σ
  image : String → σ → Visual
  solid : Color → Vec → σ → Visual
  /-- Time passes for an image on the stage. -/
  tick : Duration → Visual → σ → σ
  /-- Puts an image into a sprite group; `false` if it has none. -/
  regroup : String → Visual → σ → Bool × σ
  hasButton : String → σ → Bool
  isDown : String → σ → Bool
  anyDown : σ → Bool
  isFullscreen : σ → Bool
  forcesResolution : σ → Bool
  resolution : σ → Vec

def Host.tellAll {σ : Type} (host : Host σ) (events : List Event) (world : σ) : σ :=
  events.foldl (fun w e => host.tell e w) world

inductive Step where
  | pending
  | done
  deriving DecidableEq, Repr

/-- The answer of a handler: how far it got, what it tells the host, and its new state. -/
structure Answer (τ : Type) where
  step : Step
  events : List Event
  state : τ

structure Handler (τ : Type) where
  /-- A custom instruction is met. -/
  interpret : String → Instruction → τ → Answer τ
  /-- Time passes while it is pending. -/
  update : String → Instruction → Duration → τ → Answer τ
  /-- A signal goes out to a group of objects. -/
  signal : String → Instruction → τ → List Event × τ

end Cutscene
