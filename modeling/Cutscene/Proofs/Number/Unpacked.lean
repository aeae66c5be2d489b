import Cutscene.Proofs.Number.Rounds
import Cutscene.Proofs.Number.Shortest

namespace Cutscene.Number

open Float.Model (UnpackedFloat totalExponent)
open Float.Model.UnpackedFloat hiding round

def signed : Sign → ℚ → ℚ
  | .positive, x => x
  | .negative, x => -x

def number? : UnpackedFloat → Option ℚ
  | .zero _ => some 0
  | .finite sign mantissa exponent _ => some (signed sign (mantissa * 2 ^ exponent))
  | .infinity _ | .notANumber => none

structure Stored (mantissa : ℕ) (exponent : ℤ) : Prop where
  lt : mantissa < 2 ^ 53
  least : -1074 ≤ exponent
  greatest : exponent ≤ 971
  normal : 2 ^ 52 ≤ mantissa ∨ exponent = -1074

theorem Rounds.signed (h : Rounds q x) (sign : Sign) : Rounds (signed sign q) (signed sign x) := by
  cases sign with
  | positive => exact h
  | negative => exact h.neg

section Cut

/-- Where the number lies beyond the mantissa, by the two bits that are kept of the rest. -/
def Cuts (x : ℚ) : ExtendedMantissa → Prop
  | ⟨m, false, false⟩ => x = m
  | ⟨m, false, true⟩ => m < x ∧ x < m + 1 / 2
  | ⟨m, true, false⟩ => x = m + 1 / 2
  | ⟨m, true, true⟩ => m + 1 / 2 < x ∧ x < m + 1

variable {x : ℚ} {em : ExtendedMantissa}

theorem Cuts.shiftRightOne (h : Cuts x em) : Cuts (x / 2) em.shiftRightOne := by
  obtain ⟨m, roundBit, stickyBit⟩ := em
  obtain ⟨j, rfl | rfl⟩ := Nat.even_or_odd' m
  · have hshift : (⟨2 * j, roundBit, stickyBit⟩ : ExtendedMantissa).shiftRightOne =
        ⟨j, false, roundBit || stickyBit⟩ := by
      simp [ExtendedMantissa.shiftRightOne]
    rw [hshift]
    cases roundBit <;> cases stickyBit <;> simp only [Cuts, Bool.or_false, Bool.or_true] at h ⊢ <;>
      push_cast at h
    · linarith
    · constructor <;> linarith
    · constructor <;> linarith
    · constructor <;> linarith
  · have hshift : (⟨2 * j + 1, roundBit, stickyBit⟩ : ExtendedMantissa).shiftRightOne =
        ⟨j, true, roundBit || stickyBit⟩ := by
      simp [ExtendedMantissa.shiftRightOne]
      omega
    rw [hshift]
    cases roundBit <;> cases stickyBit <;> simp only [Cuts, Bool.or_false, Bool.or_true] at h ⊢ <;>
      push_cast at h
    · linarith
    · constructor <;> linarith
    · constructor <;> linarith
    · constructor <;> linarith

theorem Cuts.shiftRight (h : Cuts x em) (k : ℕ) : Cuts (x / 2 ^ k) (em >>> k) := by
  induction k with
  | zero =>
      rw [pow_zero, div_one]
      exact h
  | succ k ih =>
      rw [pow_succ, ← div_div]
      exact ih.shiftRightOne

theorem mantissa_shiftRight (em : ExtendedMantissa) (k : ℕ) :
    (em >>> k).mantissa = em.mantissa / 2 ^ k := by
  induction k with
  | zero => exact (Nat.div_one _).symm
  | succ k ih =>
      change (em >>> k).mantissa / 2 = _
      rw [ih, Nat.div_div_eq_div_mul, pow_succ]

theorem roundedMantissa_bounds (em : ExtendedMantissa) :
    em.mantissa ≤ em.roundedMantissa ∧ em.roundedMantissa ≤ em.mantissa + 1 := by
  obtain ⟨m, _ | _, _ | _⟩ := em
  · exact ⟨le_rfl, Nat.le_succ m⟩
  · exact ⟨le_rfl, Nat.le_succ m⟩
  · change m ≤ m + m % 2 ∧ m + m % 2 ≤ m + 1
    omega
  · exact ⟨Nat.le_succ m, le_rfl⟩

theorem Cuts.le (h : Cuts x em) : em.mantissa ≤ x := by
  obtain ⟨m, _ | _, _ | _⟩ := em <;> simp only [Cuts] at h ⊢ <;> linarith

theorem Cuts.lt (h : Cuts x em) : x < em.mantissa + 1 := by
  obtain ⟨m, _ | _, _ | _⟩ := em <;> simp only [Cuts] at h ⊢ <;> linarith

theorem Cuts.near (h : Cuts x em) : |(em.roundedMantissa : ℚ) - x| ≤ 1 / 2 := by
  rw [abs_le]
  obtain ⟨m, _ | _, _ | _⟩ := em
  · change -(1 / 2) ≤ (m : ℚ) - x ∧ (m : ℚ) - x ≤ 1 / 2
    rw [Cuts] at h
    constructor <;> linarith
  · change -(1 / 2) ≤ (m : ℚ) - x ∧ (m : ℚ) - x ≤ 1 / 2
    rw [Cuts] at h
    constructor <;> linarith
  · change -(1 / 2) ≤ ((m + m % 2 : ℕ) : ℚ) - x ∧ ((m + m % 2 : ℕ) : ℚ) - x ≤ 1 / 2
    rw [Cuts] at h
    have hbit : (m % 2 : ℕ) ≤ (1 : ℚ) := by exact_mod_cast Nat.le_of_lt_succ (Nat.mod_lt m two_pos)
    have hbit' : (0 : ℚ) ≤ (m % 2 : ℕ) := Nat.cast_nonneg _
    push_cast at hbit hbit' ⊢
    constructor <;> linarith
  · change -(1 / 2) ≤ ((m + 1 : ℕ) : ℚ) - x ∧ ((m + 1 : ℕ) : ℚ) - x ≤ 1 / 2
    rw [Cuts] at h
    push_cast
    constructor <;> linarith

end Cut

section Store

variable {m : ℕ} {e : ℤ}

theorem toNat_implicit (f : BitVec 52) : (1#1 ++ f).toNat = 2 ^ 52 + f.toNat := by
  rw [BitVec.toNat_append, Nat.shiftLeft_eq, Nat.mul_comm]
  exact (Nat.two_pow_add_eq_or_of_lt f.isLt 1).symm

theorem unpack_normal (sign : Sign) {field : BitVec 11} (f : BitVec 52) (hleast : field.toNat ≠ 0)
    (hgreatest : field.toNat ≠ 2047) :
    unpack .binary64 (packComponents .binary64 sign field f) =
      .finite sign (2 ^ 52 + f.toNat) (field.toNat - 1075) (by positivity) := by
  have hinfinite : field ≠ -1#11 := fun h => hgreatest (congrArg BitVec.toNat h)
  have hzero : field ≠ 0#11 := fun h => hleast (congrArg BitVec.toNat h)
  rw [unpack]
  simp only [unpackExponent_packComponents, unpackMantissa_packComponents,
    unpackSign_packComponents, Sign.ofBitVec_toBitVec, if_neg hinfinite, if_neg hzero,
    toNat_implicit]
  rfl

theorem unpack_subnormal (sign : Sign) {f : BitVec 52} (hf : 0 < f.toNat) :
    unpack .binary64 (packComponents .binary64 sign 0#11 f) = .finite sign f.toNat (-1074) hf := by
  have hinfinite : 0#11 ≠ -1#11 := by decide
  have hzero : f ≠ 0#52 := fun h => hf.ne' (congrArg BitVec.toNat h)
  rw [unpack]
  simp only [unpackExponent_packComponents, unpackMantissa_packComponents,
    unpackSign_packComponents, Sign.ofBitVec_toBitVec, if_neg hinfinite, if_true, dif_neg hzero]
  rfl

theorem stored_unpack {b : BitVec 64} {sign : Sign} {hm : 0 < m}
    (h : unpack .binary64 b = .finite sign m e hm) : Stored m e := by
  obtain ⟨s, field, f, rfl⟩ : ∃ s field f, packComponents .binary64 s field f = b :=
    ⟨_, _, _, @packComponents_unpackSign_unpackExponent_unpackMantissa .binary64 b⟩
  have hfield : field.toNat < 2 ^ 11 := field.isLt
  have hf : f.toNat < 2 ^ 52 := f.isLt
  by_cases hgreatest : field.toNat = 2047
  · have hinfinite : field = -1#11 := BitVec.eq_of_toNat_eq hgreatest
    rw [unpack] at h
    simp only [unpackExponent_packComponents, if_pos hinfinite] at h
    split at h <;> cases h
  by_cases hleast : field.toNat = 0
  · obtain rfl : field = 0#11 := BitVec.eq_of_toNat_eq hleast
    rcases Nat.eq_zero_or_pos f.toNat with hzero | hpos
    · obtain rfl : f = 0#52 := BitVec.eq_of_toNat_eq hzero
      rw [show packComponents .binary64 s 0#11 0#52 = packedZero .binary64 s from rfl,
        unpack_packedZero] at h
      cases h
    · rw [unpack_subnormal s hpos] at h
      cases h
      exact ⟨by omega, le_rfl, by decide, .inr rfl⟩
  · rw [unpack_normal s f hleast hgreatest] at h
    cases h
    exact ⟨by omega, by omega, by omega, .inl (by omega)⟩

def Kept (u : UnpackedFloat) : Prop := unpack .binary64 (pack .binary64 u) = u

theorem kept_zero (sign : Sign) : Kept (.zero sign) := unpack_packedZero

theorem Stored.kept (h : Stored m e) (sign : Sign) (hm : 0 < m) : Kept (.finite sign m e hm) := by
  obtain ⟨hlt, hleast, hgreatest, hnormal⟩ := h
  have hfinite : ¬ 2 ^ 11 ≤ (e + 1023 + 52).toNat + 1 := by omega
  have hpack : pack .binary64 (.finite sign m e hm) =
      if m.log2 + 1 = 53 then
        packComponents .binary64 sign (BitVec.ofNat 11 (e + 1023 + 52).toNat) (BitVec.ofNat 52 m)
      else packComponents .binary64 sign 0#11 (BitVec.ofNat 52 m) := if_neg hfinite
  rw [Kept, hpack]
  by_cases hbig : 2 ^ 52 ≤ m
  · have hlog : m.log2 = 52 := (Nat.log2_eq_iff hm.ne').mpr ⟨hbig, hlt⟩
    have hfield : (BitVec.ofNat 11 (e + 1023 + 52).toNat).toNat = (e + 1023 + 52).toNat :=
      Nat.mod_eq_of_lt (by omega)
    have hf : (BitVec.ofNat 52 m).toNat = m % 2 ^ 52 := rfl
    rw [if_pos (congrArg (· + 1) hlog), unpack_normal _ _ (by omega) (by omega)]
    congr 1 <;> omega
  · have hlog : m.log2 < 52 := (Nat.log2_lt hm.ne').mpr (by omega)
    have hf : (BitVec.ofNat 52 m).toNat = m := Nat.mod_eq_of_lt (by omega)
    rw [if_neg (by omega), unpack_subnormal _ (by omega)]
    congr 1
    omega

end Store

section Round

variable {m : ℕ} {e : ℤ} {acc : Accuracy} {q : ℚ}

theorem cut_bounds {t : ℤ} (ht : max ((m.log2 + 1 + e : ℤ) - 53) (-1074) = t) (h : e ≤ t) {k : ℕ}
    (hk : (t - e).toNat = k) :
    e + k = t ∧ -1074 ≤ t ∧ m / 2 ^ k < 2 ^ 53 ∧ (2 ^ 52 ≤ m / 2 ^ k ∨ t = -1074) := by
  have hfew : m / 2 ^ k < 2 ^ 53 := by
    rw [Nat.div_lt_iff_lt_mul (by positivity), ← pow_add]
    exact Nat.lt_log2_self.trans_le (Nat.pow_le_pow_right two_pos (by omega))
  refine ⟨by omega, by omega, hfew, ?_⟩
  by_cases hleast : t = -1074
  · exact .inr hleast
  · by_cases hm : m = 0
    · subst hm
      rw [Nat.log2_zero] at ht
      omega
    refine .inl ?_
    rw [Nat.le_div_iff_mul_le (by positivity), ← pow_add]
    exact (Nat.pow_le_pow_right two_pos (by omega)).trans (Nat.log2_self_le hm)

theorem targetExponent_eq (total : ℤ) :
    Float.Model.Format.targetExponent .binary64 total = max (total - 53) (-1074) := by
  have hleast : Float.Model.Format.minExponent .binary64 = -1074 := by decide
  rw [Float.Model.Format.targetExponent, hleast]
  rfl

theorem shiftToTargetExponent_eq (m : ℕ) (e : ℤ) (acc : Accuracy) {k : ℕ}
    (hk : k = (max ((m.log2 + 1 + e : ℤ) - 53) (-1074) - e).toNat) :
    shiftToTargetExponent .binary64 m e acc =
      (ExtendedMantissa.ofMantissaAndAccuracy m acc >>> k, e + k) := by
  rw [shiftToTargetExponent, shiftToExponent, targetExponent_eq, hk]
  rfl

theorem shiftToTargetExponent_of_stored (hm : m < 2 ^ 53) (he : -1074 ≤ e) :
    shiftToTargetExponent .binary64 m e .exact = (⟨m, false, false⟩, e) := by
  have hlog : m.log2 ≤ 52 := by
    by_cases h : m = 0
    · rw [h]
      decide
    · exact Nat.le_of_lt_succ ((Nat.log2_lt h).mpr hm)
  rw [shiftToTargetExponent_eq m e .exact (show 0 = _ by omega), Nat.cast_zero, add_zero]
  rfl

theorem shiftToTargetExponent_of_carry (he : -1074 ≤ e) :
    shiftToTargetExponent .binary64 (2 ^ 53) e .exact = (⟨2 ^ 52, false, false⟩, e + 1) := by
  have hlog : (2 ^ 53 : ℕ).log2 = 53 := Nat.log2_two_pow
  rw [shiftToTargetExponent_eq (2 ^ 53) e .exact (show 1 = _ by omega)]
  rfl

def built (sign : Sign) (m : ℕ) (e : ℤ) : UnpackedFloat :=
  if h : m = 0 then .zero sign else .finite sign m e (Nat.pos_of_ne_zero h)

theorem number?_built (sign : Sign) (m : ℕ) (e : ℤ) :
    number? (built sign m e) = some (signed sign (m * 2 ^ e)) := by
  rw [built]
  split
  · rename_i hzero
    rw [hzero, Nat.cast_zero, zero_mul]
    cases sign
    · exact congrArg some neg_zero.symm
    · rfl
  · rfl

theorem Stored.kept_built (h : Stored m e) (sign : Sign) : Kept (built sign m e) := by
  rw [built]
  split
  · exact kept_zero sign
  · exact h.kept sign _

theorem built_carried (sign : Sign) {rounded : ℕ} {t : ℤ} (ht : -1074 ≤ t) (ht' : t ≤ 970)
    (hrounded : rounded ≤ 2 ^ 53) (hnormal : 2 ^ 52 ≤ rounded ∨ t = -1074) :
    let final := shiftToTargetExponent .binary64 rounded t .exact
    number? (built sign final.1.mantissa final.2) = some (signed sign (rounded * 2 ^ t)) ∧
      Kept (built sign final.1.mantissa final.2) := by
  intro final
  rcases Nat.lt_or_ge rounded (2 ^ 53) with hlt | hcarry
  · rw [show final = _ from shiftToTargetExponent_of_stored hlt ht]
    exact ⟨number?_built sign rounded t, Stored.kept_built ⟨hlt, ht, by omega, hnormal⟩ sign⟩
  · obtain rfl : rounded = 2 ^ 53 := by omega
    have hpow : (2 : ℚ) ^ (t + 1) = 2 ^ t * 2 := zpow_add_one₀ two_ne_zero t
    rw [show final = _ from shiftToTargetExponent_of_carry ht]
    refine ⟨?_, Stored.kept_built ⟨by decide, by omega, by omega, .inl le_rfl⟩ sign⟩
    rw [number?_built, hpow]
    congr 2
    push_cast
    ring

theorem rounds_roundWithAccuracy (sign : Sign) (hq : q < 2 ^ (1023 : ℤ))
    (hcuts : Cuts (q / 2 ^ e) (ExtendedMantissa.ofMantissaAndAccuracy m acc))
    (he : e ≤ max ((m.log2 + 1 + e : ℤ) - 53) (-1074)) :
    ∃ x, Rounds q x ∧ number? (roundWithAccuracy .binary64 sign m e acc) = some (signed sign x) ∧
      Kept (roundWithAccuracy .binary64 sign m e acc) := by
  generalize ht : max ((m.log2 + 1 + e : ℤ) - 53) (-1074) = t at he
  generalize hk : (t - e).toNat = k
  obtain ⟨hshift, hleast, hfew, hnormal⟩ := cut_bounds ht he hk
  have hcut : Cuts (q / 2 ^ t) (ExtendedMantissa.ofMantissaAndAccuracy m acc >>> k) := by
    rw [← hshift, zpow_add₀ two_ne_zero, zpow_natCast, ← div_div]
    exact hcuts.shiftRight k
  have hround : roundWithAccuracy .binary64 sign m e acc =
      let final := shiftToTargetExponent .binary64
        (ExtendedMantissa.ofMantissaAndAccuracy m acc >>> k).roundedMantissa t .exact
      built sign final.1.mantissa final.2 := by
    rw [roundWithAccuracy, shiftToTargetExponent_eq m e acc (ht ▸ hk.symm), hshift]
    rfl
  have hmantissa : (ExtendedMantissa.ofMantissaAndAccuracy m acc >>> k).mantissa = m / 2 ^ k := by
    rw [mantissa_shiftRight]
    obtain _ | _ | _ | _ := acc <;> rfl
  generalize ExtendedMantissa.ofMantissaAndAccuracy m acc >>> k = em at hcut hround hmantissa
  obtain ⟨hle, hlt⟩ := roundedMantissa_bounds em
  have hpos : (0 : ℚ) < 2 ^ t := by positivity
  have hleq : em.mantissa * 2 ^ t ≤ q := (le_div_iff₀ hpos).mp hcut.le
  have hfull (h : 2 ^ 52 ≤ m / 2 ^ k) : 2 ^ 52 * 2 ^ t ≤ q := by
    have hbits : (2 ^ 52 : ℚ) ≤ em.mantissa := by
      rw [hmantissa]
      exact_mod_cast h
    exact (mul_le_mul_of_nonneg_right hbits hpos.le).trans hleq
  have htop : t ≤ 970 := by
    rcases hnormal with hnormal | hleast
    · -- Otherwise the mantissa alone would make the number too large.
      by_contra hlarge
      have hpow : (2 : ℚ) ^ (1023 : ℤ) ≤ 2 ^ (52 + t) :=
        zpow_le_zpow_right₀ one_le_two (by omega)
      rw [zpow_add₀ two_ne_zero] at hpow
      exact absurd hq (not_lt.mpr (hpow.trans (hfull hnormal)))
    · omega
  obtain ⟨hnumber, hkept⟩ := built_carried sign hleast htop
    (show em.roundedMantissa ≤ 2 ^ 53 by omega) (by omega)
  refine ⟨em.roundedMantissa * 2 ^ t, .of_step ?_ (hnormal.imp_left hfull) hcut.near,
    hround ▸ hnumber, hround ▸ hkept⟩
  exact (mul_nonneg (Nat.cast_nonneg _) hpos.le).trans hleq

end Round

section Arithmetic

variable {m m₁ m₂ : ℕ} {e e₁ e₂ : ℤ} {u v : UnpackedFloat} {a b : ℚ}

theorem cuts_exact (m : ℕ) : Cuts m (.ofMantissaAndAccuracy m .exact) := rfl

/-- The operation yields the number, but for the rounding. -/
def Yields (u : UnpackedFloat) (q : ℚ) : Prop := ∃ x, Rounds q x ∧ number? u = some x ∧ Kept u

theorem yields_round (sign : Sign) (hm : 0 < m) (hq : m * (2 : ℚ) ^ e < 2 ^ (1023 : ℤ)) :
    Yields (UnpackedFloat.round .binary64 sign m e) (signed sign (m * 2 ^ e)) := by
  generalize hk : (e - Float.Model.Format.targetExponent .binary64 (totalExponent m e)).toNat = k
  have hround : UnpackedFloat.round .binary64 sign m e =
      roundWithAccuracy .binary64 sign (m <<< k) (e - k) .exact := by
    rw [← hk]
    rfl
  have hshift : (m <<< k : ℕ) = m * (2 : ℚ) ^ k := by
    rw [Nat.shiftLeft_eq]
    push_cast
    rfl
  have hcuts : Cuts (m * 2 ^ e / 2 ^ (e - k)) (.ofMantissaAndAccuracy (m <<< k) .exact) := by
    rw [mul_div_assoc, ← zpow_sub₀ two_ne_zero, sub_sub_cancel, zpow_natCast, ← hshift]
    exact cuts_exact _
  have hlog : (m <<< k).log2 = m.log2 + k := by
    rw [Nat.shiftLeft_eq]
    exact Format.log2_mul_pow hm.ne' k
  rw [targetExponent_eq, totalExponent] at hk
  obtain ⟨x, hx, hnumber, hkept⟩ := rounds_roundWithAccuracy sign hq hcuts (by omega)
  rw [hround]
  exact ⟨_, hx.signed sign, hnumber, hkept⟩

theorem yields_normalize {n : ℤ} (hq : |n * (2 : ℚ) ^ e| < 2 ^ (1023 : ℤ)) (sign : Sign) :
    Yields (UnpackedFloat.normalize .binary64 n e sign) (n * 2 ^ e) := by
  have hpos : (0 : ℚ) < 2 ^ e := by positivity
  rw [abs_mul, abs_of_pos hpos] at hq
  have hmagnitude : ((n.natAbs : ℕ) : ℚ) = |(n : ℚ)| := by
    rw [← Int.cast_abs, Int.abs_eq_natAbs, Int.cast_natCast]
  rw [← hmagnitude] at hq
  rw [UnpackedFloat.normalize]
  rcases lt_trichotomy n 0 with hn | rfl | hn
  · have hround := yields_round .negative (by omega : 0 < n.natAbs) hq
    have hsigned : signed .negative (n.natAbs * 2 ^ e) = n * 2 ^ e := by
      rw [hmagnitude, abs_of_neg (by exact_mod_cast hn), signed, neg_mul, neg_neg]
    rw [hsigned] at hround
    rw [compare_lt_iff_lt.mpr hn, show (-n).toNat = n.natAbs by omega]
    exact hround
  · refine ⟨0, ?_, rfl, kept_zero sign⟩
    rw [Int.cast_zero, zero_mul]
    exact .refl 0
  · have hround := yields_round .positive (by omega : 0 < n.natAbs) hq
    have hsigned : signed .positive (n.natAbs * 2 ^ e) = n * 2 ^ e := by
      rw [hmagnitude, abs_of_pos (by exact_mod_cast hn), signed]
    rw [hsigned] at hround
    rw [compare_gt_iff_gt.mpr hn, show n.toNat = n.natAbs by omega]
    exact hround

theorem decreaseExponent_eq {t : ℤ} (ht : t ≤ e) (sign : Sign) :
    ((sign.apply (decreaseExponent m e t).1 : ℤ) : ℚ) * 2 ^ t = signed sign (m * 2 ^ e) := by
  have hmantissa : ((decreaseExponent m e t).1 : ℚ) * 2 ^ t = m * 2 ^ e := by
    change ((m <<< (e - t).toNat : ℕ) : ℚ) * 2 ^ t = _
    rw [Nat.shiftLeft_eq]
    push_cast
    rw [mul_assoc, ← zpow_natCast, ← zpow_add₀ two_ne_zero]
    congr 2
    omega
  cases sign with
  | positive => exact_mod_cast hmantissa
  | negative =>
      change ((-((decreaseExponent m e t).1 : ℤ) : ℤ) : ℚ) * 2 ^ t = -(m * 2 ^ e)
      rw [← hmantissa]
      push_cast
      ring

theorem Yields.of_kept (hu : number? u = some a) (hkept : Kept u) : Yields u a :=
  ⟨a, .refl a, hu, hkept⟩

theorem Kept.stored {sign : Sign} {hm : 0 < m} (h : Kept (.finite sign m e hm)) : Stored m e :=
  stored_unpack h

theorem yields_zero (sign : Sign) : Yields (.zero sign) 0 := .of_kept rfl (kept_zero sign)

theorem yields_add (hu : number? u = some a) (hv : number? v = some b) (hku : Kept u)
    (hkv : Kept v) (h : |a + b| < 2 ^ (1023 : ℤ)) :
    Yields (UnpackedFloat.add .binary64 u v) (a + b) := by
  cases u with
  | infinity | notANumber => cases hu
  | zero sign =>
      cases hu
      rw [zero_add]
      cases v with
      | infinity | notANumber => cases hv
      | zero sign' =>
          cases hv
          rw [UnpackedFloat.add]
          split <;> exact yields_zero _
      | finite sign' m' e' hm' => exact .of_kept hv hkv
  | finite sign m e hm =>
      cases v with
      | infinity | notANumber => cases hv
      | zero sign' =>
          cases hv
          rw [add_zero]
          exact .of_kept hu hku
      | finite sign' m' e' hm' =>
          cases hu
          cases hv
          rw [← decreaseExponent_eq (min_le_left e e') sign,
            ← decreaseExponent_eq (min_le_right e e') sign', ← add_mul, ← Int.cast_add] at h ⊢
          exact yields_normalize h .positive

theorem yields_sub (hu : number? u = some a) (hv : number? v = some b) (hku : Kept u)
    (hkv : Kept v) (h : |a - b| < 2 ^ (1023 : ℤ)) :
    Yields (UnpackedFloat.sub .binary64 u v) (a - b) := by
  cases u with
  | infinity | notANumber => cases hu
  | zero sign =>
      cases hu
      rw [zero_sub]
      cases v with
      | infinity | notANumber => cases hv
      | zero sign' =>
          cases hv
          rw [UnpackedFloat.sub, neg_zero]
          split <;> exact yields_zero _
      | finite sign' m' e' hm' =>
          cases hv
          refine .of_kept ?_ (hkv.stored.kept (-sign') hm')
          cases sign' with
          | positive => rfl
          | negative => exact congrArg some (neg_neg _).symm
  | finite sign m e hm =>
      cases v with
      | infinity | notANumber => cases hv
      | zero sign' =>
          cases hv
          rw [sub_zero]
          exact .of_kept hu hku
      | finite sign' m' e' hm' =>
          cases hu
          cases hv
          rw [← decreaseExponent_eq (min_le_left e e') sign,
            ← decreaseExponent_eq (min_le_right e e') sign', ← sub_mul, ← Int.cast_sub] at h ⊢
          exact yields_normalize h .positive

theorem signed_mul (s t : Sign) (x y : ℚ) : signed s x * signed t y = signed (s * t) (x * y) := by
  cases s <;> cases t
  · exact neg_mul_neg x y
  · exact neg_mul x y
  · exact mul_neg x y
  · rfl

theorem signed_div (s t : Sign) (x y : ℚ) : signed s x / signed t y = signed (s / t) (x / y) := by
  cases s <;> cases t
  · exact neg_div_neg_eq x y
  · exact neg_div y x
  · exact div_neg x
  · rfl

theorem abs_signed (s : Sign) (x : ℚ) : |signed s x| = |x| := by
  cases s
  · exact abs_neg x
  · rfl

theorem Stored.mul (h : Stored m₁ e₁) (h' : Stored m₂ e₂) (hm : 0 < m₁) (hm' : 0 < m₂) :
    e₁ + e₂ ≤ max (((m₁ * m₂).log2 + 1 + (e₁ + e₂) : ℤ) - 53) (-1074) := by
  have hlog (hfull : 2 ^ 52 ≤ m₁ * m₂) : 52 ≤ (m₁ * m₂).log2 :=
    (Nat.le_log2 (Nat.mul_pos hm hm').ne').mpr hfull
  rcases h.normal with hnormal | hleast
  · have := hlog (hnormal.trans (Nat.le_mul_of_pos_right m₁ hm'))
    omega
  · rcases h'.normal with hnormal' | hleast'
    · have := hlog (hnormal'.trans (Nat.le_mul_of_pos_left m₂ hm))
      omega
    · omega

theorem yields_mul (hu : number? u = some a) (hv : number? v = some b) (hku : Kept u)
    (hkv : Kept v) (h : |a * b| < 2 ^ (1023 : ℤ)) :
    Yields (UnpackedFloat.mul .binary64 u v) (a * b) := by
  cases u with
  | infinity | notANumber => cases hu
  | zero sign =>
      cases hu
      rw [zero_mul]
      cases v with
      | infinity | notANumber => cases hv
      | zero sign' => exact yields_zero _
      | finite sign' m' e' hm' => exact yields_zero _
  | finite sign m e hm =>
      cases v with
      | infinity | notANumber => cases hv
      | zero sign' =>
          cases hv
          rw [mul_zero]
          exact yields_zero _
      | finite sign' m' e' hm' =>
          cases hu
          cases hv
          have hproduct : (m * 2 ^ e * (m' * 2 ^ e') : ℚ) = (m * m' : ℕ) * 2 ^ (e + e') := by
            rw [zpow_add₀ two_ne_zero]
            push_cast
            ring
          rw [signed_mul, hproduct] at h ⊢
          rw [abs_signed, abs_of_nonneg (by positivity)] at h
          have hcuts : Cuts ((m * m' : ℕ) * 2 ^ (e + e') / 2 ^ (e + e'))
              (.ofMantissaAndAccuracy (m * m') .exact) := by
            rw [mul_div_cancel_right₀ _ (by positivity)]
            exact cuts_exact _
          have hbits := hku.stored.mul hkv.stored hm hm'
          obtain ⟨x, hx, hnumber, hkept⟩ := rounds_roundWithAccuracy (sign * sign') h hcuts hbits
          exact ⟨_, hx.signed _, hnumber, hkept⟩

theorem cuts_fraction (num : ℕ) {den : ℕ} (hden : 0 < den) :
    Cuts (num / den) (.ofMantissaAndAccuracy (num / den) (accuracyOfFraction (num % den) den)) := by
  have hpos : (0 : ℚ) < den := by exact_mod_cast hden
  have hquot : (num : ℚ) / den = (num / den : ℕ) + (num % den : ℕ) / den := by
    rw [div_eq_iff hpos.ne', add_mul, div_mul_cancel₀ _ hpos.ne']
    exact_mod_cast (Nat.div_add_mod' num den).symm
  have hmod : ((num % den : ℕ) : ℚ) / den < 1 :=
    (div_lt_one hpos).mpr (by exact_mod_cast Nat.mod_lt num hden)
  generalize num / den = quotient at hquot ⊢
  generalize num % den = rest at hquot hmod ⊢
  rw [hquot, accuracyOfFraction]
  split
  · rename_i hzero
    rw [hzero, Nat.cast_zero, zero_div, add_zero]
    exact cuts_exact quotient
  · rename_i hrest
    have hrest' : (0 : ℚ) < rest / den := div_pos (by exact_mod_cast Nat.pos_of_ne_zero hrest) hpos
    rcases lt_trichotomy (2 * rest) den with hlt | heq | hgt
    · have hhalf : (rest : ℚ) / den < 1 / 2 := by
        rw [div_lt_iff₀ hpos]
        have : (2 * rest : ℚ) < den := by exact_mod_cast hlt
        linarith
      rw [compare_lt_iff_lt.mpr hlt]
      exact ⟨by linarith, by linarith⟩
    · have hhalf : (rest : ℚ) / den = 1 / 2 := by
        rw [div_eq_iff hpos.ne']
        have : (2 * rest : ℚ) = den := by exact_mod_cast heq
        linarith
      rw [compare_eq_iff_eq.mpr heq, hhalf]
      rfl
    · have hhalf : (1 : ℚ) / 2 < rest / den := by
        rw [lt_div_iff₀ hpos]
        have : (den : ℚ) < 2 * rest := by exact_mod_cast hgt
        linarith
      rw [compare_gt_iff_gt.mpr hgt]
      exact ⟨by linarith, by linarith⟩

theorem quotient_bits (hm : 0 < m₁) (hm' : 0 < m₂) {t : ℤ} {k : ℕ}
    (ht : min (e₁ - e₂) (max ((m₁.log2 + 1 + e₁ - (m₂.log2 + 1 + e₂) : ℤ) - 53) (-1074)) = t)
    (hk : (e₁ - e₂ - t).toNat = k) :
    t ≤ max (((m₁ * 2 ^ k / m₂).log2 + 1 + t : ℤ) - 53) (-1074) := by
  by_cases hleast : t ≤ -1074
  · exact le_max_of_le_right hleast
  have hlong : 52 + (m₂.log2 + 1) ≤ m₁.log2 + k := by omega
  have hfull : 2 ^ 52 ≤ m₁ * 2 ^ k / m₂ := by
    rw [Nat.le_div_iff_mul_le hm']
    calc 2 ^ 52 * m₂ ≤ 2 ^ 52 * 2 ^ (m₂.log2 + 1) :=
          Nat.mul_le_mul_left _ Nat.lt_log2_self.le
      _ ≤ 2 ^ (m₁.log2 + k) := by
          rw [← pow_add]
          exact Nat.pow_le_pow_right two_pos hlong
      _ ≤ m₁ * 2 ^ k := by
          rw [pow_add]
          exact Nat.mul_le_mul_right _ (Nat.log2_self_le hm.ne')
  have hlog : 52 ≤ (m₁ * 2 ^ k / m₂).log2 := (Nat.le_log2 (by omega)).mpr hfull
  omega

theorem yields_div (hu : number? u = some a) (hv : number? v = some b) (hb : b ≠ 0)
    (h : |a / b| < 2 ^ (1023 : ℤ)) : Yields (UnpackedFloat.div .binary64 u v) (a / b) := by
  cases v with
  | infinity | notANumber => cases hv
  | zero sign' =>
      cases hv
      exact absurd rfl hb
  | finite sign' m' e' hm' =>
      cases u with
      | infinity | notANumber => cases hu
      | zero sign =>
          cases hu
          rw [zero_div]
          exact yields_zero _
      | finite sign m e hm =>
          cases hu
          cases hv
          generalize ht : min (e - e')
            (max ((m.log2 + 1 + e - (m'.log2 + 1 + e') : ℤ) - 53) (-1074)) = t
          generalize hk : (e - e' - t).toNat = k
          have hdiv : UnpackedFloat.div .binary64 (.finite sign m e hm) (.finite sign' m' e' hm') =
              roundWithAccuracy .binary64 (sign / sign') (m * 2 ^ k / m') t
                (accuracyOfFraction (m * 2 ^ k % m') m') := by
            rw [UnpackedFloat.div, divCore, targetExponent_eq, totalExponent, totalExponent, ht, hk,
              Nat.shiftLeft_eq]
          have hquot : (m * 2 ^ e / (m' * 2 ^ e') : ℚ) = (m * 2 ^ k : ℕ) / m' * 2 ^ t := by
            have hpow : (2 : ℚ) ^ e = 2 ^ k * 2 ^ t * 2 ^ e' := by
              rw [← zpow_natCast, ← zpow_add₀ two_ne_zero, ← zpow_add₀ two_ne_zero]
              congr 1
              omega
            rw [hpow]
            push_cast
            field_simp
          rw [signed_div, hquot] at h ⊢
          rw [abs_signed, abs_of_nonneg (by positivity)] at h
          have hcuts := cuts_fraction (m * 2 ^ k) hm'
          rw [← mul_div_cancel_right₀ ((m * 2 ^ k : ℕ) / m' : ℚ)
            (by positivity : (2 : ℚ) ^ t ≠ 0)] at hcuts
          obtain ⟨x, hx, hnumber, hkept⟩ :=
            rounds_roundWithAccuracy (sign / sign') h hcuts (quotient_bits hm hm' ht hk)
          rw [hdiv]
          exact ⟨_, hx.signed _, hnumber, hkept⟩

end Arithmetic

end Cutscene.Number
