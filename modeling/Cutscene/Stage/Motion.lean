namespace Cutscene

structure Vec where
  x : Float32
  y : Float32
  deriving DecidableEq

namespace Vec

def zero : Vec := ⟨0, 0⟩

def one : Vec := ⟨1, 1⟩

instance : Inhabited Vec := ⟨zero⟩

instance : Add Vec := ⟨fun a b => ⟨a.x + b.x, a.y + b.y⟩⟩

instance : Sub Vec := ⟨fun a b => ⟨a.x - b.x, a.y - b.y⟩⟩

def scale (v : Vec) (factor : Float32) : Vec := ⟨v.x * factor, v.y * factor⟩

def half (v : Vec) : Vec := ⟨v.x / 2, v.y / 2⟩

end Vec

structure PositionWait where
  target : Vec
  positiveX : Bool
  positiveY : Bool
  deriving DecidableEq

namespace PositionWait

/-- The directions are those of the velocity at this moment; standing still counts as positive. -/
def capture (target velocity : Vec) : PositionWait := ⟨target, 0 ≤ velocity.x, 0 ≤ velocity.y⟩

def past (positive : Bool) (target position : Float32) : Bool :=
  if positive then target ≤ position else position ≤ target

def reached (w : PositionWait) (position : Vec) : Bool :=
  past w.positiveX w.target.x position.x && past w.positiveY w.target.y position.y

end PositionWait

structure Motion where
  position : Vec := .zero
  velocity : Vec := .zero
  acceleration : Vec := .zero
  wait : Option PositionWait := none
  deriving DecidableEq

namespace Motion

def integrate (dt : Float32) (m : Motion) : Motion :=
  { m with
    position := m.position + m.velocity.scale dt
    velocity := m.velocity + m.acceleration.scale dt }

def waitFor (target : Vec) (m : Motion) : Motion :=
  { m with wait := some (.capture target m.velocity) }

def cancelWait (m : Motion) : Motion := { m with wait := none }

def arrived (m : Motion) : Bool := m.wait.any (·.reached m.position)

def advance (dt : Float32) (m : Motion) : Motion × Bool :=
  let moved := m.integrate dt
  if moved.arrived then (moved.cancelWait, true) else (moved, false)

end Motion

end Cutscene
