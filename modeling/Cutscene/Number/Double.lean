import Cutscene.Number.Literal
import Cutscene.Number.Shortest

namespace Cutscene

open Number

structure Double where
  bits : UInt64
  deriving DecidableEq, Repr, Inhabited

structure Single where
  bits : UInt32
  deriving DecidableEq, Repr, Inhabited

namespace Number

def Format.text (f : Format) (bits : Nat) : List Char :=
  let signed (cs : List Char) := if f.negative bits then '-' :: cs else cs
  match f.quantity bits with
  | .nan => ['N', 'a', 'N']
  | .infinite _ => signed ['i', 'n', 'f']
  | .finite _ _ => signed (f.shortest .up (f.magnitude bits)).plain

def Format.readFinite (f : Format) (cs : List Char) : Option Nat :=
  (f.read cs).filter (· < f.infinity)

end Number

namespace Double

def text (x : Double) : List Char := Format.double.text x.bits.toNat

def read (cs : List Char) : Option Double :=
  (Format.double.readFinite cs).map fun b => ⟨UInt64.ofNat b⟩

def toFloat (x : Double) : Float := Float.ofBits x.bits

def ofNat (n : Nat) : Double := ⟨UInt64.ofNat (Format.double.round n 1)⟩

/-- Equality of numbers: both zeros are equal, and what is no number differs from itself. -/
def same (x y : Double) : Bool := x.toFloat == y.toFloat

end Double

namespace Single

def text (x : Single) : List Char := Format.single.text x.bits.toNat

def read (cs : List Char) : Option Single :=
  (Format.single.readFinite cs).map fun b => ⟨UInt32.ofNat b⟩

def toFloat32 (x : Single) : Float32 := Float32.ofBits x.bits

def toDouble (x : Single) : Double :=
  ⟨UInt64.ofNat (Format.single.convert Format.double x.bits.toNat)⟩

def toFloat (x : Single) : Float := x.toDouble.toFloat

@[inherit_doc Double.same]
def same (x y : Single) : Bool := x.toFloat32 == y.toFloat32

end Single

def floatOfNat (n : Nat) : Float := (Double.ofNat n).toFloat

def floatOfInt (n : Int) : Float :=
  match n with
  | .ofNat n => floatOfNat n
  | .negSucc n => -floatOfNat (n + 1)

def singleOfNat (n : Nat) : Float32 := Float32.ofBits (UInt32.ofNat (Format.single.round n 1))

def singleOfInt (n : Int) : Float32 :=
  match n with
  | .ofNat n => singleOfNat n
  | .negSucc n => -singleOfNat (n + 1)

def narrow (x : Float) : Float32 :=
  Float32.ofBits (UInt32.ofNat (Format.double.convert Format.single x.toBits.toNat))

def widen (x : Float32) : Float := (Single.mk x.toBits).toFloat

def Number.Format.roundAway (f : Format) (bits : Nat) : Nat :=
  match f.quantity bits with
  | .finite negative units => f.withSign negative (f.round (roundDiv .up units f.one) 1)
  | _ => bits

def roundAway (x : Float) : Float :=
  Float.ofBits (UInt64.ofNat (Format.double.roundAway x.toBits.toNat))

def roundAway32 (x : Float32) : Float32 :=
  Float32.ofBits (UInt32.ofNat (Format.single.roundAway x.toBits.toNat))

def Number.Format.whole (f : Format) (bits : Nat) : Nat :=
  match f.quantity bits with
  | .finite negative units => f.withSign negative (f.round (units / f.one) 1)
  | _ => bits

def truncate (x : Float) : Float :=
  Float.ofBits (UInt64.ofNat (Format.double.whole x.toBits.toNat))

def hold (lowest highest n : Int) : Int :=
  if n < lowest then lowest else if highest < n then highest else n

def toInt32 (x : Float) : Int32 :=
  let n := Format.double.truncate 0x100000000 x.toBits.toNat
  Int32.ofInt (hold (-0x80000000) 0x7fffffff n)

def toInt64 (x : Float) : Int64 :=
  let n := Format.double.truncate 0x10000000000000000 x.toBits.toNat
  Int64.ofInt (hold (-0x8000000000000000) 0x7fffffffffffffff n)

end Cutscene
