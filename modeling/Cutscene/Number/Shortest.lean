import Cutscene.Number.Format

namespace Cutscene.Number

/-- The number `coefficient * 10 ^ exponent`. -/
structure Scientific where
  coefficient : Nat
  exponent : Int
  deriving DecidableEq, Repr

def Scientific.trim : Nat → Scientific → Scientific
  | 0, d => d
  | fuel + 1, d =>
      if d.coefficient ≠ 0 ∧ d.coefficient % 10 = 0 then
        trim fuel ⟨d.coefficient / 10, d.exponent + 1⟩
      else d

def Scientific.numerator (d : Scientific) : Nat := d.coefficient * Nat.pow 10 d.exponent.toNat

def Scientific.denominator (d : Scientific) : Nat := Nat.pow 10 (-d.exponent).toNat

def digits (n : Nat) : List Char := Nat.toDigits 10 n

def Scientific.pointPosition (d : Scientific) : Int := (digits d.coefficient).length + d.exponent

def padded (width : Nat) (cs : List Char) : List Char :=
  List.replicate (width - cs.length) '0' ++ cs

/-- `n / 10 ^ places` with exactly that many digits after the point, and no point for none. -/
def fixed (n places : Nat) : List Char :=
  if places = 0 then digits n
  else digits (n / Nat.pow 10 places) ++ '.' :: padded places (digits (n % Nat.pow 10 places))

def Scientific.plain (d : Scientific) : List Char := fixed d.numerator (-d.exponent).toNat

namespace Format

variable (f : Format)

def reach : Nat := f.one.log2

def roundsTo (magnitude : Nat) (d : Scientific) : Bool :=
  f.round d.numerator d.denominator == magnitude

def exactly (magnitude : Nat) : Scientific :=
  ⟨f.units magnitude * Nat.pow 5 f.one.log2, -f.one.log2⟩

def leading (magnitude : Nat) : Int :=
  (digits (f.units magnitude * Nat.pow 10 f.reach / f.one)).length - 1 - (f.reach : Int)

/-- The two decimals next to the number that end at `exponent`, the nearer one first. -/
def neighbours (tie : Tie) (magnitude : Nat) (exponent : Int) : List Scientific :=
  let num := f.units magnitude * Nat.pow 10 (-exponent).toNat
  let den := f.one * Nat.pow 10 exponent.toNat
  let near := roundDiv tie num den
  let far := if near = num / den then near + 1 else near - 1
  [⟨near, exponent⟩, ⟨far, exponent⟩]

def enough : Nat := f.precision * 3 / 10 + 2

def candidates (tie : Tie) (magnitude : Nat) : List Scientific :=
  let leading := f.leading magnitude
  (List.range f.enough).flatMap fun (i : Nat) =>
    (f.neighbours tie magnitude (leading - (i : Int))).map (Scientific.trim f.enough)

/-- The decimal of fewest digits that rounds to the number, the nearest one of those. -/
def shortest (tie : Tie) (magnitude : Nat) : Scientific :=
  if magnitude = 0 then ⟨0, 0⟩
  else
    match (f.candidates tie magnitude).find? (f.roundsTo magnitude) with
    | some d => d
    | none => f.exactly magnitude

end Format

end Cutscene.Number
