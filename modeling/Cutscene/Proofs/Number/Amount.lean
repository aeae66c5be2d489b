import Cutscene.Number.Double
import Cutscene.Proofs.Number.Unpacked

namespace Cutscene.Number

open Float.Model (UnpackedFloat)
open Float.Model.UnpackedFloat hiding round

variable {x y : Float} {a b : ℚ}

def Amounts (x : Float) (a : ℚ) : Prop := number? x.toModel.unpack = some a

theorem kept_unpack (x : Float) : Kept x.toModel.unpack := by
  rw [Kept, Float.Model.unpack, @pack_unpack_of_valid .binary64 _ x.toModel.valid (by decide)]

theorem Yields.amounts {u : UnpackedFloat} (h : Yields u a) :
    ∃ c, Rounds a c ∧ Amounts ⟨Float.Model.pack u⟩ c := by
  obtain ⟨c, hc, hnumber, hkept⟩ := h
  refine ⟨c, hc, ?_⟩
  rw [Amounts, Float.Model.unpack, Float.Model.pack]
  exact (congrArg number? hkept).trans hnumber

theorem Amounts.add (hx : Amounts x a) (hy : Amounts y b) (h : |a + b| < 2 ^ (1023 : ℤ)) :
    ∃ c, Rounds (a + b) c ∧ Amounts (x + y) c :=
  (yields_add hx hy (kept_unpack x) (kept_unpack y) h).amounts

theorem Amounts.sub (hx : Amounts x a) (hy : Amounts y b) (h : |a - b| < 2 ^ (1023 : ℤ)) :
    ∃ c, Rounds (a - b) c ∧ Amounts (x - y) c :=
  (yields_sub hx hy (kept_unpack x) (kept_unpack y) h).amounts

theorem Amounts.mul (hx : Amounts x a) (hy : Amounts y b) (h : |a * b| < 2 ^ (1023 : ℤ)) :
    ∃ c, Rounds (a * b) c ∧ Amounts (x * y) c :=
  (yields_mul hx hy (kept_unpack x) (kept_unpack y) h).amounts

theorem Amounts.div (hx : Amounts x a) (hy : Amounts y b) (hb : b ≠ 0)
    (h : |a / b| < 2 ^ (1023 : ℤ)) : ∃ c, Rounds (a / b) c ∧ Amounts (x / y) c :=
  (yields_div hx hy hb h).amounts

theorem unpack_zero : (0 : Float).toModel.unpack = .zero .positive := by
  have hbits : (0 : Float).toModel.toBits.toBitVec = packedZero .binary64 .positive := by
    decide +kernel
  rw [Float.Model.unpack, hbits, unpack_packedZero]

theorem Amounts.le_zero (hx : Amounts x a) : x ≤ 0 ↔ a ≤ 0 := by
  change decide (x.toModel ≤ (0 : Float).toModel) = true ↔ a ≤ 0
  rw [decide_eq_true_iff]
  change (x.toModel.unpack.compare (0 : Float).toModel.unpack).any (·.isLE) = true ↔ a ≤ 0
  rw [unpack_zero]
  rw [Amounts] at hx
  generalize x.toModel.unpack = u at hx ⊢
  cases u with
  | infinity | notANumber => cases hx
  | zero sign =>
      cases hx
      exact ⟨fun _ => le_rfl, fun _ => by cases sign <;> rfl⟩
  | finite sign m e hm =>
      cases hx
      have hpos : (0 : ℚ) < m * 2 ^ e := by positivity
      cases sign with
      | positive => exact ⟨nofun, fun h => absurd h (not_le.mpr hpos)⟩
      | negative => exact ⟨fun _ => neg_nonpos.mpr hpos.le, fun _ => rfl⟩

theorem Amounts.storable (hx : Amounts x a) : Storable a := by
  have hkept := kept_unpack x
  rw [Amounts] at hx
  generalize x.toModel.unpack = u at hx hkept
  cases u with
  | infinity | notANumber => cases hx
  | zero sign =>
      cases hx
      exact storable_zero
  | finite sign m e hm =>
      cases hx
      have hstorable : Storable (m * 2 ^ e) := by
        refine ⟨m, e, ?_, hkept.stored.least, by rw [Int.cast_natCast]⟩
        rw [abs_of_nonneg (Int.natCast_nonneg m)]
        exact_mod_cast hkept.stored.lt
      cases sign with
      | positive => exact hstorable
      | negative => exact hstorable.neg

theorem Amounts.multiple (hx : Amounts x a) : ∃ n : ℤ, a = n * 2 ^ (-1074 : ℤ) := by
  obtain ⟨n, hn⟩ := hx.storable.multiple (.inr rfl)
  exact ⟨n, (div_eq_iff (by positivity)).mp hn⟩

theorem roundDiv_bounds (tie : Tie) (num den : ℕ) :
    num / den ≤ roundDiv tie num den ∧ roundDiv tie num den ≤ num / den + 1 := by
  rw [roundDiv]
  split
  · omega
  · split
    · omega
    · split <;> omega

theorem roundDiv_toEven (num : ℕ) {den : ℕ} (hden : 0 < den) :
    roundDiv .toEven num den = (ExtendedMantissa.ofMantissaAndAccuracy (num / den)
      (accuracyOfFraction (num % den) den)).roundedMantissa := by
  rw [roundDiv, accuracyOfFraction]
  generalize num / den = quotient
  generalize num % den = rest
  rcases lt_trichotomy (2 * rest) den with hlt | heq | hgt
  · rw [if_pos hlt, compare_lt_iff_lt.mpr hlt]
    split <;> rfl
  · have hrest : ¬ rest = 0 := by omega
    rw [if_neg heq.not_lt, if_neg heq.not_gt, compare_eq_iff_eq.mpr heq, if_neg hrest]
    change (if (quotient % 2 == 1) = true then quotient + 1 else quotient) = quotient + quotient % 2
    simp only [beq_iff_eq]
    split <;> omega
  · rw [if_neg hgt.not_gt, if_pos hgt, if_neg (by omega), compare_gt_iff_gt.mpr hgt]
    rfl

theorem near_roundDiv (num : ℕ) {den : ℕ} (hden : 0 < den) :
    |(roundDiv .toEven num den : ℚ) - num / den| ≤ 1 / 2 := by
  rw [roundDiv_toEven num hden]
  exact (cuts_fraction num hden).near

theorem unpack_bits {quotient shift : ℕ} (hquotient : 2 ^ 52 ≤ quotient)
    (hcarry : quotient ≤ 2 ^ 53) (hshift : shift < 2045) :
    number? (unpack .binary64 (BitVec.ofNat 64 (quotient + shift * 2 ^ 52))) =
      some ((quotient : ℚ) * 2 ^ ((shift : ℤ) - 1074)) := by
  generalize hb : BitVec.ofNat 64 (quotient + shift * 2 ^ 52) = b
  have hbits : b.toNat = quotient + shift * 2 ^ 52 := by
    rw [← hb, BitVec.toNat_ofNat, Nat.mod_eq_of_lt (by omega)]
  have hmantissa : (@unpackMantissa .binary64 b).toNat = b.toNat % 2 ^ 52 := by
    rw [unpackMantissa, BitVec.toNat_cast, BitVec.extractLsb_toNat]
    rfl
  have hexponent : (@unpackExponent .binary64 b).toNat = b.toNat / 2 ^ 52 % 2 ^ 11 := by
    rw [unpackExponent, BitVec.toNat_cast, BitVec.extractLsb_toNat, Nat.shiftRight_eq_div_pow]
    rfl
  have hsign : (@unpackSign .binary64 b).toNat = b.toNat / 2 ^ 63 % 2 ^ 1 := by
    rw [unpackSign, BitVec.toNat_cast, BitVec.extractLsb_toNat, Nat.shiftRight_eq_div_pow]
    rfl
  have hpositive : Sign.ofBitVec (@unpackSign .binary64 b) = .positive := by
    have hzero : (@unpackSign .binary64 b).toNat = 0 := by
      rw [hsign, hbits]
      omega
    rw [show @unpackSign .binary64 b = 0#1 from BitVec.eq_of_toNat_eq hzero]
    rfl
  rw [← @packComponents_unpackSign_unpackExponent_unpackMantissa .binary64 b, hpositive,
    unpack_normal _ _ (by omega) (by omega), number?, signed, hmantissa, hexponent, hbits]
  congr 1
  rcases Nat.lt_or_ge quotient (2 ^ 53) with hlt | hge
  · have hmod : 2 ^ 52 + (quotient + shift * 2 ^ 52) % 2 ^ 52 = quotient := by omega
    have hdiv : (quotient + shift * 2 ^ 52) / 2 ^ 52 % 2 ^ 11 = shift + 1 := by omega
    rw [hmod, hdiv]
    congr 2
    push_cast
    ring
  · obtain rfl : quotient = 2 ^ 53 := by omega
    have hmod : 2 ^ 52 + (2 ^ 53 + shift * 2 ^ 52) % 2 ^ 52 = 2 ^ 52 := by omega
    have hdiv : (2 ^ 53 + shift * 2 ^ 52) / 2 ^ 52 % 2 ^ 11 = shift + 2 := by omega
    have hpow : (2 : ℚ) ^ ((shift + 2 : ℕ) - 1075 : ℤ) = 2 ^ ((shift : ℤ) - 1074) * 2 := by
      rw [← zpow_add_one₀ two_ne_zero]
      congr 1
      push_cast
      ring
    rw [hmod, hdiv, hpow]
    push_cast
    ring

theorem kept_of_number? {b : BitVec 64} (h : number? (unpack .binary64 b) = some a) :
    Kept (unpack .binary64 b) := by
  cases hu : unpack .binary64 b with
  | infinity | notANumber =>
      rw [hu] at h
      cases h
  | zero sign => exact kept_zero sign
  | finite sign m e hm => exact (stored_unpack hu).kept sign hm

theorem amounts_ofBits {w : UInt64} (h : number? (unpack .binary64 w.toBitVec) = some a) :
    Amounts (Float.ofBits w) a := (congrArg number? (kept_of_number? h)).trans h

theorem quotient_bounds {n : ℕ} (hn : 0 < n) :
    2 ^ 52 ≤ roundDiv .toEven (n * 2 ^ 52) (2 ^ n.log2) ∧
      roundDiv .toEven (n * 2 ^ 52) (2 ^ n.log2) ≤ 2 ^ 53 := by
  obtain ⟨hle, hlt⟩ := roundDiv_bounds .toEven (n * 2 ^ 52) (2 ^ n.log2)
  have hlow : 2 ^ 52 ≤ n * 2 ^ 52 / 2 ^ n.log2 := by
    rw [Nat.le_div_iff_mul_le (by positivity), Nat.mul_comm]
    exact Nat.mul_le_mul_right _ (Nat.log2_self_le hn.ne')
  have hhigh : n * 2 ^ 52 / 2 ^ n.log2 < 2 ^ 53 := by
    rw [Nat.div_lt_iff_lt_mul (by positivity), pow_succ 2 52, Nat.mul_assoc, ← pow_succ',
      Nat.mul_comm (2 ^ 52)]
    exact Nat.mul_lt_mul_of_pos_right Nat.lt_log2_self (by positivity)
  omega

/-- The exponent is not given as a numeral, lest the power be worked out. -/
theorem one_double : ∃ j, j = 1022 ∧ Format.double.one = Nat.pow 2 (52 + j) := by
  have hexponent : Nat.pow 2 (Format.double.exponentWidth - 1) + Format.double.precision - 3 =
      52 + 1022 := by decide
  refine ⟨_, rfl, ?_⟩
  rw [Format.one, hexponent]

theorem round_double {n : ℕ} (hn : 0 < n) (hlt : n < 2 ^ 64) :
    Format.double.round n 1 =
      roundDiv .toEven (n * 2 ^ 52) (2 ^ n.log2) + (n.log2 + 1022) * 2 ^ 52 := by
  obtain ⟨j, hj, hone⟩ := one_double
  have hpow : Nat.pow 2 (52 + j) = 2 ^ 52 * 2 ^ j := pow_add 2 52 j
  have hlog : (n * Nat.pow 2 (52 + j)).log2 = n.log2 + (52 + j) :=
    Format.log2_mul_pow hn.ne' (52 + j)
  have hbinade : Format.double.binade = 2 ^ 52 := rfl
  have hshift : n.log2 + (52 + j) + 1 - Format.double.precision = n.log2 + j := by
    change n.log2 + (52 + j) + 1 - 53 = _
    omega
  have hcancel : roundDiv .toEven (n * Nat.pow 2 (52 + j)) (Nat.pow 2 (n.log2 + j)) =
      roundDiv .toEven (n * 2 ^ 52) (2 ^ n.log2) := by
    have hpow' : Nat.pow 2 (n.log2 + j) = 2 ^ n.log2 * 2 ^ j := pow_add 2 n.log2 j
    rw [hpow, hpow', ← Nat.mul_assoc, roundDiv_mul_right _ _ _ (Nat.two_pow_pos j)]
  have hsmall : n.log2 < 64 := (Nat.log2_lt hn.ne').mpr hlt
  obtain ⟨-, hcarry⟩ := quotient_bounds hn
  rw [Format.round, hone]
  simp only [Nat.div_one, hlog, hshift, Nat.one_mul, hbinade, hcancel]
  have hinfinity : Format.double.infinity = 2047 * 2 ^ 52 := by decide
  rw [hj, hinfinity]
  exact Nat.min_eq_left (by omega)

theorem floatOfNat_of_round {n bits : ℕ} (hround : Format.double.round n 1 = bits)
    (h : number? (unpack .binary64 (BitVec.ofNat 64 bits)) = some a) : Amounts (floatOfNat n) a := by
  have hfloat : floatOfNat n = Float.ofBits (UInt64.ofNat bits) := by
    rw [← hround]
    rfl
  rw [hfloat]
  exact amounts_ofBits h

theorem amounts_floatOfNat {n : ℕ} (hlt : n < 2 ^ 64) :
    ∃ c, Rounds n c ∧ Amounts (floatOfNat n) c := by
  rcases Nat.eq_zero_or_pos n with rfl | hn
  · refine ⟨0, ?_, ?_⟩
    · rw [Nat.cast_zero]
      exact .refl 0
    · have hzero : floatOfNat 0 = 0 := by decide +kernel
      rw [Amounts, hzero, unpack_zero]
      rfl
  · obtain ⟨hquotient, hcarry⟩ := quotient_bounds hn
    have hsmall : n.log2 < 64 := (Nat.log2_lt hn.ne').mpr hlt
    have hnumber := unpack_bits hquotient hcarry (by omega : n.log2 + 1022 < 2045)
    refine ⟨_, ?_, floatOfNat_of_round (round_double hn hlt) hnumber⟩
    have hexponent : ((n.log2 + 1022 : ℕ) : ℤ) - 1074 = n.log2 - 52 := by omega
    have hpow : (2 : ℚ) ^ n.log2 = 2 ^ 52 * 2 ^ (n.log2 - 52 : ℤ) := by
      rw [← zpow_natCast 2 52, ← zpow_add₀ two_ne_zero, ← zpow_natCast, Nat.cast_ofNat,
        add_sub_cancel]
    have hquot : (n / 2 ^ (n.log2 - 52 : ℤ) : ℚ) = (n * 2 ^ 52 : ℕ) / (2 ^ n.log2 : ℕ) := by
      rw [Nat.cast_mul, Nat.cast_pow, Nat.cast_pow, Nat.cast_ofNat, hpow, mul_comm (n : ℚ),
        mul_div_mul_left _ _ (by positivity)]
    rw [hexponent]
    refine .of_step (Nat.cast_nonneg n) (.inl ?_) ?_
    · rw [← hpow]
      exact_mod_cast Nat.log2_self_le hn.ne'
    · rw [hquot]
      exact near_roundDiv _ (by positivity)

theorem amounts_of_lt {n : ℕ} (hlt : n < 2 ^ 53) : Amounts (floatOfNat n) n := by
  obtain ⟨c, hc, hamounts⟩ := amounts_floatOfNat (hlt.trans (by decide))
  have hstorable : Storable n := by
    have := storable_int (n := n) (by rw [Nat.abs_cast]; exact_mod_cast hlt)
    exact_mod_cast this
  rwa [hc.exact hstorable] at hamounts

theorem roundToInt_of_whole {m n : ℕ} {e : ℤ} (h : m * (2 : ℚ) ^ e = n) :
    roundToInt .positive m e = n := by
  generalize hj : (e - 0).toNat = j
  generalize hk : (0 - (e - j)).toNat = k
  have hround : roundToInt .positive m e =
      (ExtendedMantissa.ofMantissaAndAccuracy (m <<< j) .exact >>> k).mantissa := by
    rw [← hk, ← hj]
    rfl
  have hvalue : ((m <<< j : ℕ) : ℚ) / 2 ^ k = n := by
    have hpow : (2 : ℚ) ^ j = 2 ^ e * 2 ^ k := by
      rw [← zpow_natCast, ← zpow_natCast, ← zpow_add₀ two_ne_zero]
      congr 1
      omega
    rw [div_eq_iff (by positivity), ← h, mul_assoc, ← hpow, Nat.shiftLeft_eq]
    push_cast
    rfl
  have hcut := (cuts_exact (m <<< j)).shiftRight k
  rw [hvalue] at hcut
  rw [hround]
  generalize ExtendedMantissa.ofMantissaAndAccuracy (m <<< j) .exact >>> k = em at hcut ⊢
  have hle : em.mantissa ≤ n := by exact_mod_cast hcut.le
  have hlt : n < em.mantissa + 1 := by exact_mod_cast hcut.lt
  exact_mod_cast le_antisymm hle (Nat.le_of_lt_succ hlt)

theorem Amounts.toUInt32 {n : UInt32} (hx : Amounts x n.toNat) : x.toUInt32 = n := by
  have hwhole : toInt 0 (UInt32.size - 1) x.toModel.unpack = n.toNat := by
    rw [Amounts] at hx
    generalize x.toModel.unpack = u at hx ⊢
    cases u with
    | infinity | notANumber => cases hx
    | zero sign =>
        have hzero : n.toNat = 0 := by exact_mod_cast (Option.some.inj hx).symm
        rw [hzero]
        rfl
    | finite sign m e hm =>
        have hvalue := Option.some.inj hx
        have hpos : (0 : ℚ) < m * 2 ^ e := by positivity
        cases sign with
        | negative =>
            have hnonneg : (0 : ℚ) ≤ n.toNat := Nat.cast_nonneg _
            rw [← hvalue] at hnonneg
            exact absurd hpos (not_lt.mpr (neg_nonneg.mp hnonneg))
        | positive => exact roundToInt_of_whole hvalue
  change UInt32.ofNatClamp (toInt 0 (UInt32.size - 1) x.toModel.unpack).toNat = n
  rw [hwhole, Int.toNat_natCast, UInt32.ofNatClamp, dif_pos n.toNat_lt]
  rfl

end Cutscene.Number
