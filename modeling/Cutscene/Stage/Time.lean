import Cutscene.Number.Double

namespace Cutscene

open Number

structure Duration where
  nanoseconds : Nat
  deriving DecidableEq, Repr

namespace Duration

def perSecond : Nat := 1000000000

def whole (d : Duration) : Nat := d.nanoseconds / perSecond

def part (d : Duration) : Nat := d.nanoseconds % perSecond

def seconds (d : Duration) : Float := floatOfNat d.whole + floatOfNat d.part / 1e9

def singleSeconds (d : Duration) : Float32 := singleOfNat d.whole + singleOfNat d.part / 1e9

/-- The nearest whole nanosecond; a tie goes to the even one. What is no length of time is none. -/
def ofSeconds (x : Float) : Duration :=
  match Format.double.quantity x.toBits.toNat with
  | .finite false units => ⟨roundDiv .toEven (units * perSecond) Format.double.one⟩
  | _ => ⟨0⟩

def frame (rate : Nat) : Duration := ofSeconds (1 / floatOfNat rate)

end Duration

structure Countdown where
  initial : UInt32
  remaining : Float
  deriving DecidableEq

namespace Countdown

def start (millis : UInt32) : Countdown := ⟨millis, floatOfNat millis.toNat⟩

def tick (elapsed : Duration) (c : Countdown) : Countdown :=
  { c with remaining := c.remaining - elapsed.seconds * 1000 }

def left? (c : Countdown) : Option Float := if 0 < c.remaining then some c.remaining else none

def finished (c : Countdown) : Bool := c.remaining ≤ 0

def fraction? (c : Countdown) : Option Float32 :=
  c.left?.map fun left => narrow (left / floatOfNat c.initial.toNat)

end Countdown

end Cutscene
