import Mathlib

namespace Cutscene.Number

/-- A number with so few digits can be stored as it is. -/
def Storable (y : ℚ) : Prop := ∃ n e : ℤ, |n| < 2 ^ 53 ∧ -1074 ≤ e ∧ y = n * 2 ^ e

/-- The number `q` is stored as `x`: next to nothing is lost unless it is very small, and no number
that can be stored is nearer to it. -/
structure Rounds (q x : ℚ) : Prop where
  near : 2 ^ (-1022 : ℤ) ≤ |q| → |x - q| ≤ |q| / 2 ^ 53
  nearest : ∀ y, Storable y → |x - q| ≤ |y - q|

theorem Storable.neg {y : ℚ} (h : Storable y) : Storable (-y) := by
  obtain ⟨n, e, hn, he, rfl⟩ := h
  exact ⟨-n, e, by rwa [abs_neg], he, by rw [Int.cast_neg, neg_mul]⟩

theorem storable_int {n : ℤ} (h : |n| < 2 ^ 53) : Storable n :=
  ⟨n, 0, h, by decide, by rw [zpow_zero, mul_one]⟩

theorem storable_zero : Storable 0 := by exact_mod_cast storable_int (by decide : |(0 : ℤ)| < 2 ^ 53)

theorem Storable.multiple {y : ℚ} (h : Storable y) {t : ℤ}
    (hstep : 2 ^ 52 * 2 ^ t ≤ |y| ∨ t = -1074) : ∃ n : ℤ, y / 2 ^ t = n := by
  obtain ⟨n, e, hn, he, rfl⟩ := h
  have hmultiple : t ≤ e := by
    rcases hstep with hstep | hleast
    · have hn' : |(n : ℚ)| < 2 ^ 53 := by exact_mod_cast hn
      have hlt : 2 ^ 52 * 2 ^ t < (2 ^ 53 : ℚ) * 2 ^ e := by
        refine hstep.trans_lt ?_
        rw [abs_mul, abs_of_pos (by positivity : (0 : ℚ) < 2 ^ e)]
        exact mul_lt_mul_of_pos_right hn' (by positivity)
      have hpow : (2 : ℚ) ^ t < 2 ^ (e + 1) := by
        rw [zpow_add_one₀ two_ne_zero]
        linarith
      have := (zpow_lt_zpow_iff_right₀ one_lt_two).mp hpow
      omega
    · omega
  obtain ⟨j, hj⟩ := Int.eq_ofNat_of_zero_le (sub_nonneg.mpr hmultiple)
  refine ⟨n * 2 ^ j, ?_⟩
  rw [mul_div_assoc, ← zpow_sub₀ two_ne_zero, hj]
  push_cast
  rfl

namespace Rounds

variable {q x y : ℚ}

theorem refl (q : ℚ) : Rounds q q where
  near _ := by
    rw [sub_self, abs_zero]
    positivity
  nearest y _ := by
    rw [sub_self, abs_zero]
    exact abs_nonneg _

theorem neg (h : Rounds q x) : Rounds (-q) (-x) where
  near hq := by
    rw [abs_neg] at hq ⊢
    rw [neg_sub_neg, abs_sub_comm]
    exact h.near hq
  nearest y hy := by
    rw [neg_sub_neg, abs_sub_comm, sub_neg_eq_add, ← abs_neg (y + q), neg_add']
    exact h.nearest (-y) hy.neg

theorem exact (h : Rounds q x) (hq : Storable q) : x = q := by
  have hnone := h.nearest q hq
  rw [sub_self, abs_zero] at hnone
  exact sub_eq_zero.mp (abs_nonpos_iff.mp hnone)

theorem le (h : Rounds q x) (hy : Storable y) (hle : q ≤ y) : x ≤ y := by
  by_contra hlt
  have hnear := h.nearest y hy
  rw [abs_of_nonneg (sub_nonneg.mpr hle), abs_of_nonneg (by linarith)] at hnear
  linarith

theorem ge (h : Rounds q x) (hy : Storable y) (hle : y ≤ q) : y ≤ x :=
  neg_le_neg_iff.mp (h.neg.le hy.neg (neg_le_neg hle))

theorem near_of_multiple (h : Rounds q x) {n : ℤ} (hq : q = n * 2 ^ (-1074 : ℤ)) :
    |x - q| ≤ |q| / 2 ^ 53 := by
  rcases lt_or_ge |n| (2 ^ 53) with hn | hn
  · rw [h.exact ⟨n, -1074, hn, le_rfl, hq⟩, sub_self, abs_zero]
    positivity
  · refine h.near ?_
    have hcast : (2 ^ 53 : ℚ) ≤ |(n : ℚ)| := by exact_mod_cast hn
    have hpow : (2 : ℚ) ^ (-1022 : ℤ) = 2 ^ 52 * 2 ^ (-1074 : ℤ) := by
      rw [← zpow_natCast, ← zpow_add₀ two_ne_zero]
      rfl
    rw [hq, abs_mul, abs_of_pos (by positivity : (0 : ℚ) < 2 ^ (-1074 : ℤ)), hpow]
    exact mul_le_mul_of_nonneg_right (by linarith) (by positivity)

theorem near_int {n : ℤ} (h : Rounds n x) : |x - n| ≤ |(n : ℚ)| / 2 ^ 53 := by
  rcases lt_or_ge |n| (2 ^ 53) with hn | hn
  · rw [h.exact (storable_int hn), sub_self, abs_zero]
    positivity
  · refine h.near ?_
    have hcast : (1 : ℚ) ≤ |(n : ℚ)| := by exact_mod_cast (by decide : (1 : ℤ) ≤ 2 ^ 53).trans hn
    refine le_trans ?_ hcast
    rw [← zpow_zero (2 : ℚ)]
    exact zpow_le_zpow_right₀ one_le_two (by decide)

theorem of_step {rounded : ℕ} {t : ℤ} (hnonneg : 0 ≤ q)
    (hstep : 2 ^ 52 * 2 ^ t ≤ q ∨ t = -1074) (hnear : |(rounded : ℚ) - q / 2 ^ t| ≤ 1 / 2) :
    Rounds q (rounded * 2 ^ t) := by
  have hpos : (0 : ℚ) < 2 ^ t := by positivity
  have hdist (z : ℚ) : |z * 2 ^ t - q| = |z - q / 2 ^ t| * 2 ^ t := by
    rw [← abs_of_pos hpos, ← abs_mul, abs_of_pos hpos, sub_mul, div_mul_cancel₀ _ hpos.ne']
  have hwhole (n : ℤ) : |(rounded : ℚ) - q / 2 ^ t| ≤ |n - q / 2 ^ t| := by
    by_cases heq : (rounded : ℤ) = n
    · rw [← heq, Int.cast_natCast]
    · have hone : (1 : ℚ) ≤ |(rounded : ℚ) - n| := by
        exact_mod_cast Int.one_le_abs (sub_ne_zero.mpr heq)
      have htriangle := abs_sub_le (rounded : ℚ) (q / 2 ^ t) n
      rw [abs_sub_comm (q / 2 ^ t) (n : ℚ)] at htriangle
      linarith
  refine ⟨fun hsmall => ?_, fun y hy => ?_⟩
  · rw [abs_of_nonneg hnonneg] at hsmall ⊢
    have hulp : 2 ^ 52 * 2 ^ t ≤ q := by
      rcases hstep with hstep | hleast
      · exact hstep
      · rw [hleast, ← zpow_natCast, ← zpow_add₀ two_ne_zero]
        exact hsmall
    have hhalf := mul_le_mul_of_nonneg_right hnear hpos.le
    rw [hdist]
    linarith
  · by_cases hfine : 2 ^ 52 * 2 ^ t ≤ |y| ∨ t = -1074
    · obtain ⟨n, hn⟩ := hy.multiple hfine
      rw [← div_mul_cancel₀ y hpos.ne', hn, hdist, hdist]
      exact mul_le_mul_of_nonneg_right (hwhole n) hpos.le
    · -- The step is too coarse for this number, which is farther than the coarsest that it fits.
      obtain ⟨hsmall, hcoarse⟩ := not_or.mp hfine
      have hbound := mul_le_mul_of_nonneg_right (hwhole (2 ^ 52)) hpos.le
      rw [Int.cast_pow, Int.cast_ofNat, ← hdist, ← hdist] at hbound
      have hfull := hstep.resolve_right hcoarse
      have hy' := (le_abs_self y).trans (not_le.mp hsmall).le
      rw [abs_sub_comm (2 ^ 52 * 2 ^ t) q, abs_of_nonneg (sub_nonneg.mpr hfull)] at hbound
      rw [abs_sub_comm y q]
      exact hbound.trans ((sub_le_sub_left hy' q).trans (le_abs_self _))

/-- It is off by no more than half a step of the multiples that are all stored. -/
theorem half_step (h : Rounds q x) (hq : 0 ≤ q) {t : ℤ} (ht : -1074 ≤ t)
    (hfew : q < (2 ^ 53 - 1) * 2 ^ t) : |x - q| ≤ 2 ^ t / 2 := by
  have hpos : (0 : ℚ) < 2 ^ t := by positivity
  have hround := abs_sub_round (q / 2 ^ t)
  have hquot : q / 2 ^ t < 2 ^ 53 - 1 := (div_lt_iff₀ hpos).mpr hfew
  have hquot' : 0 ≤ q / 2 ^ t := by positivity
  generalize round (q / 2 ^ t) = n at hround
  rw [abs_le] at hround
  have hn : |n| < 2 ^ 53 := by
    rw [abs_lt]
    constructor
    · have : (-1 : ℚ) < n := by linarith
      have : -1 < n := by exact_mod_cast this
      omega
    · have : (n : ℚ) < 2 ^ 53 := by linarith
      exact_mod_cast this
  refine (h.nearest (n * 2 ^ t) ⟨n, t, hn, ht, rfl⟩).trans ?_
  have hdist : n * 2 ^ t - q = (n - q / 2 ^ t) * 2 ^ t := by
    rw [sub_mul, div_mul_cancel₀ _ hpos.ne']
  have hhalf : |n - q / 2 ^ t| ≤ 1 / 2 := abs_le.mpr ⟨by linarith, by linarith⟩
  rw [hdist, abs_mul, abs_of_pos hpos]
  linarith [mul_le_mul_of_nonneg_right hhalf hpos.le]

end Rounds

end Cutscene.Number
