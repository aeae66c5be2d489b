import Cutscene.Number.Rounding

namespace Cutscene.Number

/-- `precision` counts the significant bits, the leading one included. -/
structure Format where
  precision : Nat
  exponentWidth : Nat
  deriving DecidableEq, Repr

namespace Format

def single : Format := ⟨24, 8⟩

def double : Format := ⟨53, 11⟩

variable (f : Format)

def binade : Nat := Nat.pow 2 (f.precision - 1)

def infinity : Nat := (Nat.pow 2 f.exponentWidth - 1) * f.binade

def signBit : Nat := Nat.pow 2 f.exponentWidth * f.binade

def one : Nat := Nat.pow 2 (Nat.pow 2 (f.exponentWidth - 1) + f.precision - 3)

/-- The finite magnitude with these bits, counted in least positive numbers. -/
def units (magnitude : Nat) : Nat :=
  if magnitude < f.binade then magnitude
  else (f.binade + magnitude % f.binade) * Nat.pow 2 (magnitude / f.binade - 1)

/-- The bits of the magnitude nearest to `num / den`; a tie goes to the even one. -/
def round (num den : Nat) : Nat :=
  let n := num * f.one
  let shift := (n / den).log2 + 1 - f.precision
  min (roundDiv .toEven n (den * Nat.pow 2 shift) + shift * f.binade) f.infinity

end Format

inductive Quantity where
  | finite (negative : Bool) (units : Nat)
  | infinite (negative : Bool)
  | nan
  deriving DecidableEq, Repr

namespace Format

variable (f : Format)

def negative (bits : Nat) : Bool := f.signBit ≤ bits

def magnitude (bits : Nat) : Nat := bits % f.signBit

def quantity (bits : Nat) : Quantity :=
  if f.magnitude bits < f.infinity then .finite (f.negative bits) (f.units (f.magnitude bits))
  else if f.magnitude bits = f.infinity then .infinite (f.negative bits)
  else .nan

def withSign (negative : Bool) (magnitude : Nat) : Nat :=
  if negative then f.signBit + magnitude else magnitude

def quiet : Nat := f.infinity + f.binade / 2

def convert (g : Format) (bits : Nat) : Nat :=
  match f.quantity bits with
  | .finite negative units => g.withSign negative (g.round units f.one)
  | .infinite negative => g.withSign negative g.infinity
  | .nan => g.quiet

/-- The number without its fraction, and zero for what is no number; the infinities go to `bound`,
which only has to lie beyond every range that the result is then held to. -/
def truncate (bound : Nat) (bits : Nat) : Int :=
  match f.quantity bits with
  | .finite false units => (units / f.one : Nat)
  | .finite true units => -(units / f.one : Nat)
  | .infinite false => bound
  | .infinite true => -(bound : Int)
  | .nan => 0

end Format

end Cutscene.Number
