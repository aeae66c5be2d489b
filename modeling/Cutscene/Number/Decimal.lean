import Cutscene.Number.Double

namespace Cutscene

open Number

def Decimal.bound : Nat := 0x1000000000000000000000000

/-- The number `mantissa / 10 ^ scale`; zeros at the end of the mantissa are kept. -/
structure Decimal where
  mantissa : Int
  scale : Nat
  mantissa_lt : mantissa.natAbs < Decimal.bound
  scale_le : scale ≤ 28
  deriving DecidableEq

namespace Decimal

instance : Inhabited Decimal := ⟨⟨0, 0, by decide, by decide⟩⟩

def ofParts? (mantissa : Int) (scale : Nat) : Option Decimal :=
  if h : mantissa.natAbs < bound ∧ scale ≤ 28 then some ⟨mantissa, scale, h.1, h.2⟩ else none

def text (d : Decimal) : List Char :=
  let digits := fixed d.mantissa.natAbs d.scale
  if d.mantissa < 0 then '-' :: digits else digits

def same (a b : Decimal) : Bool :=
  a.mantissa * (Nat.pow 10 b.scale : Nat) == b.mantissa * (Nat.pow 10 a.scale : Nat)

def absorb (mantissa scale : Nat) : List Char → Nat × Nat × List Char
  | [] => (mantissa, scale, [])
  | c :: cs =>
      let next := 10 * mantissa + digitValue c
      if scale < 28 ∧ next < bound then absorb next (scale + 1) cs
      else (mantissa, scale, c :: cs)

/-- Digits beyond the bounds are dropped, and the first of them rounds a half up. A mantissa that
this carries to its bound gives up its last digit. -/
def read (cs : List Char) : Option Decimal := do
  let (whole, fraction) ← splitAtPoint cs
  let integer := ofDigits whole
  if bound ≤ integer then none
  else
    let (mantissa, scale, dropped) := absorb integer 0 fraction
    let rounded := if dropped.head?.any (5 ≤ digitValue ·) then mantissa + 1 else mantissa
    if rounded < bound then ofParts? rounded scale
    else if scale = 0 then none
    else ofParts? ((rounded + 4) / 10 : Nat) (scale - 1)

/-- Repeated squaring, one rounding for each product; `fuel` bounds the bits of the exponent. -/
def power (base result : Float) : Nat → Nat → Float
  | 0, _ => result
  | fuel + 1, n =>
      let result := if n % 2 = 1 then result * base else result
      if n / 2 = 0 then result else power (base * base) result fuel (n / 2)

/-- The parts before and after the point are converted on their own, added, and rounded to the scale
again. -/
def toFloat (d : Decimal) : Float :=
  let m := d.mantissa.natAbs
  let sign (x : Float) := if d.mantissa < 0 then -x else x
  let one := Nat.pow 10 d.scale
  let whole := floatOfNat (m / one)
  let fraction := floatOfNat (m % one) / floatOfNat one
  if d.scale = 0 ∨ fraction == 0 then sign whole
  else
    let p := power 10 1 5 d.scale
    sign (roundAway ((whole + fraction) * p) / p)

def truncate (d : Decimal) : Int := Int.tdiv d.mantissa (Nat.pow 10 d.scale : Nat)

end Decimal

end Cutscene
