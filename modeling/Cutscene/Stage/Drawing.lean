import Cutscene.Stage.Appearance
import Cutscene.Stage.Time

namespace Cutscene

/-- An image as the host hands it out. What becomes of it in time is for the host to keep, who tells
images of one label apart by their numbers. -/
structure Visual where
  label : String
  size : Vec
  number : Nat := 0
  deriving DecidableEq

structure DrawParams where
  position : Vec
  size : Vec
  rotation : Angle
  origin : Vec
  scale : Vec
  effects : SpriteEffects
  tint : Color
  layerDepth : Float32
  deriving DecidableEq

inductive FadeDirection where
  | fadeOut
  | fadeIn
  deriving DecidableEq, Repr

def FadeDirection.final : FadeDirection → Float32
  | .fadeOut => 0
  | .fadeIn => 1

def FadeDirection.opacity (left : Float32) : FadeDirection → Float32
  | .fadeOut => left
  | .fadeIn => 1 - left

structure Fade where
  direction : FadeDirection
  timer : Countdown
  deriving DecidableEq

structure Drawing where
  visual : Visual
  motion : Motion
  size : Vec
  visible : Bool
  ignoresCamera : Bool
  persistent : Bool
  rotation : Angle
  origin : Vec
  layerDepth : Float32
  effects : SpriteEffects
  scale : Vec
  color : Color
  opacity : Float32
  fade : Option Fade
  deriving DecidableEq

namespace Drawing

def ofVisual (visual : Visual) : Drawing where
  visual := visual
  motion := {}
  size := visual.size
  visible := false
  ignoresCamera := false
  persistent := false
  rotation := .zero
  origin := .zero
  layerDepth := 0
  effects := .none
  scale := .one
  color := .white
  opacity := 1
  fade := none

/-- Size and position belong to the image and are lost with it; all else stays. -/
def replace (visual : Visual) (d : Drawing) : Drawing :=
  { d with visual := visual, size := visual.size, motion := { d.motion with position := .zero } }

def startFade (direction : FadeDirection) (millis : UInt32) (d : Drawing) : Drawing :=
  { d with fade := some ⟨direction, .start millis⟩ }

def waitFor (target : Vec) (d : Drawing) : Drawing := { d with motion := d.motion.waitFor target }

def tickFade (elapsed : Duration) (d : Drawing) : Drawing :=
  match d.fade with
  | none => d
  | some fade =>
      let timer := fade.timer.tick elapsed
      match timer.fraction? with
      | some left =>
          { d with opacity := fade.direction.opacity left, fade := some { fade with timer } }
      | none => { d with opacity := fade.direction.final, fade := none }

def advance (elapsed : Duration) (d : Drawing) : Drawing × Bool :=
  let (motion, arrived) := d.motion.advance elapsed.singleSeconds
  ({ d.tickFade elapsed with motion }, arrived)

/-- One tick. The last to hear of it is the image, whose state is part of a world `σ`. -/
def update {σ : Type} (tick : Duration → Visual → σ → σ) (elapsed : Duration) (d : Drawing)
    (world : σ) : (Drawing × Bool) × σ :=
  (d.advance elapsed, tick elapsed d.visual world)

def params (camera : Vec) (d : Drawing) : DrawParams where
  position := if d.ignoresCamera then d.motion.position else d.motion.position - camera
  size := d.size
  rotation := d.rotation
  origin := d.origin
  scale := d.scale
  effects := d.effects
  tint := d.color.scaled d.opacity
  layerDepth := d.layerDepth

end Drawing

end Cutscene
