import Cutscene.Instruction
import Cutscene.Stage.Motion

namespace Cutscene

structure Color where
  r : UInt8
  g : UInt8
  b : UInt8
  a : UInt8
  deriving DecidableEq, Repr

namespace Color

def white : Color := ⟨255, 255, 255, 255⟩

def channel (n : Int32) : UInt8 := n.toUInt32.toUInt8

def ofInts (r g b : Int32) (a : Option Int32) : Color :=
  ⟨channel r, channel g, channel b, (a.map channel).getD 255⟩

def scaleChannel (factor : Float32) (n : UInt8) : UInt8 :=
  (roundAway32 (singleOfNat n.toNat * factor)).toUInt8

def scaled (factor : Float32) (c : Color) : Color :=
  ⟨scaleChannel factor c.r, scaleChannel factor c.g, scaleChannel factor c.b,
    scaleChannel factor c.a⟩

end Color

/-- A turn has `2 ^ 16` units. -/
structure Angle where
  units : UInt16
  deriving DecidableEq, Repr

namespace Angle

def zero : Angle := ⟨0⟩

def unitsPerRadian : Float := 10430.37835

def unitsPerDegree : Float := 182.04444444444444

def ofUnits (x : Float) : Angle := ⟨(toInt64 x).toUInt64.toUInt16⟩

def ofRadians (x : Float) : Angle := ofUnits (x * unitsPerRadian)

def ofDegrees (x : Float32) : Angle := ofUnits (widen x * unitsPerDegree)

def radians (a : Angle) : Float := floatOfNat a.units.toNat / unitsPerRadian

def degrees (a : Angle) : Float := floatOfNat a.units.toNat / unitsPerDegree

end Angle

inductive SpriteEffects where
  | none
  | flipHorizontal
  | flipVertical
  | flipBoth
  deriving DecidableEq, Repr

def SpriteEffects.ofName (name : String) : SpriteEffects :=
  match Text.foldAscii name with
  | "fliphorizontal" => .flipHorizontal
  | "flipvertical" => .flipVertical
  | "both" | "flipboth" => .flipBoth
  | _ => .none

def SpriteEffects.name : SpriteEffects → String
  | .none => "none"
  | .flipHorizontal => "flip_horizontal"
  | .flipVertical => "flip_vertical"
  | .flipBoth => "flip_both"

inductive Anchor where
  | center
  | topLeft
  | bottomLeft
  | topRight
  | bottomRight
  deriving DecidableEq, Repr

namespace Anchor

def ofName? (name : String) : Option Anchor :=
  match Text.foldAscii name with
  | "center" => some .center
  | "topleft" => some .topLeft
  | "bottomleft" => some .bottomLeft
  | "topright" => some .topRight
  | "bottomright" => some .bottomRight
  | _ => none

def origin (size : Vec) : Anchor → Vec
  | .center => size.half
  | .topLeft => .zero
  | .bottomLeft => ⟨0, size.y⟩
  | .topRight => ⟨size.x, 0⟩
  | .bottomRight => size

end Anchor

end Cutscene
