namespace Cutscene.Number

inductive Tie where
  | toEven
  | up
  deriving DecidableEq, Repr

def Tie.roundsUp : Tie → Nat → Bool
  | .toEven, q => q % 2 == 1
  | .up, _ => true

def roundDiv (tie : Tie) (num den : Nat) : Nat :=
  let q := num / den
  let twice := 2 * (num % den)
  if twice < den then q
  else if den < twice then q + 1
  else if tie.roundsUp q then q + 1
  else q

theorem roundDiv_exact (tie : Tie) (q : Nat) {den : Nat} (h : 0 < den) :
    roundDiv tie (q * den) den = q := by
  simp [roundDiv, Nat.mul_div_cancel q h, h]

theorem roundDiv_mul_right (tie : Tie) (num den : Nat) {k : Nat} (h : 0 < k) :
    roundDiv tie (num * k) (den * k) = roundDiv tie num den := by
  have hlt (a b : Nat) : (2 * (a * k) < b * k) = (2 * a < b) := by
    rw [← Nat.mul_assoc]; exact propext (Nat.mul_lt_mul_right h)
  have hgt (a b : Nat) : (b * k < 2 * (a * k)) = (b < 2 * a) := by
    rw [← Nat.mul_assoc]; exact propext (Nat.mul_lt_mul_right h)
  simp only [roundDiv, Nat.mul_div_mul_right num den h, Nat.mul_mod_mul_right, hlt, hgt]

end Cutscene.Number
