import Cutscene.Proofs.Number.Amount
import Cutscene.Stage.Time

namespace Cutscene

open Number

namespace Number

theorem lt_top {q : ℚ} (h : |q| ≤ 2 ^ 100) : |q| < 2 ^ (1023 : ℤ) := by
  refine h.trans_lt ?_
  rw [← zpow_natCast]
  exact zpow_lt_zpow_right₀ one_lt_two (by decide)

theorem Rounds.near_of_le {q x : ℚ} (h : Rounds q x) (hq : 1 / 2 ^ 100 ≤ |q|) :
    |x - q| ≤ |q| / 2 ^ 53 := by
  refine h.near (le_trans ?_ hq)
  rw [one_div, ← zpow_natCast, ← zpow_neg]
  exact zpow_le_zpow_right₀ one_le_two (by decide)

end Number

namespace Duration

variable {d : Duration}

def Fits (d : Duration) : Prop := d.whole < 2 ^ 64

def millis (d : Duration) : ℚ := d.nanoseconds / 10 ^ 6

theorem millis_eq (d : Duration) : d.millis = 1000 * (d.whole + d.part / 10 ^ 9) := by
  have hsplit : (d.nanoseconds : ℚ) = 10 ^ 9 * d.whole + d.part := by
    exact_mod_cast (Nat.div_add_mod d.nanoseconds (10 ^ 9)).symm
  rw [millis, hsplit]
  ring

theorem millis_nonneg (d : Duration) : 0 ≤ d.millis := by
  rw [millis]
  positivity

theorem millis_le (d : Duration) (h : d.Fits) : d.millis ≤ 2 ^ 80 := by
  have hwhole : (d.whole : ℚ) < 2 ^ 64 := by exact_mod_cast h
  have hpart : (d.part : ℚ) < 10 ^ 9 := by exact_mod_cast Nat.mod_lt d.nanoseconds (by decide)
  rw [millis_eq]
  linarith

theorem amounts_thousand : Amounts 1000 1000 := by
  have hfloat : (1000 : Float) = floatOfNat 1000 := by decide +kernel
  rw [hfloat]
  exact_mod_cast amounts_of_lt (by decide : 1000 < 2 ^ 53)

theorem amounts_perSecond : Amounts 1e9 (10 ^ 9) := by
  have hfloat : (1e9 : Float) = floatOfNat (10 ^ 9) := by decide +kernel
  rw [hfloat]
  exact_mod_cast amounts_of_lt (by decide : 10 ^ 9 < 2 ^ 53)

theorem near_part (d : Duration) :
    ∃ c, Amounts (floatOfNat d.part / 1e9) c ∧ 0 ≤ c ∧
      |c - d.part / 10 ^ 9| ≤ (d.part / 10 ^ 9 : ℚ) / 2 ^ 53 := by
  have hpart : d.part < 10 ^ 9 := Nat.mod_lt _ (by decide)
  have hpart' : (d.part : ℚ) < 10 ^ 9 := by exact_mod_cast hpart
  have hnonneg : (0 : ℚ) ≤ d.part / 10 ^ 9 := by positivity
  obtain ⟨c, hc, hamounts⟩ := (amounts_of_lt (hpart.trans (by decide))).div amounts_perSecond
    (by norm_num) (lt_top (by rw [abs_of_nonneg hnonneg, div_le_iff₀ (by positivity)]; linarith))
  refine ⟨c, hamounts, hc.ge storable_zero hnonneg, ?_⟩
  rcases Nat.eq_zero_or_pos d.part with hzero | hpos
  · rw [hzero, Nat.cast_zero, zero_div] at hc ⊢
    rw [hc.exact storable_zero]
    norm_num
  · have hone : (1 : ℚ) ≤ d.part := by exact_mod_cast hpos
    have hnear := hc.near_of_le (by
      rw [abs_of_nonneg hnonneg]
      exact div_le_div₀ (by positivity) hone (by positivity) (by norm_num))
    rwa [abs_of_nonneg hnonneg] at hnear

theorem near_tick (h : d.Fits) :
    ∃ t, Amounts (d.seconds * 1000) t ∧ |t - d.millis| ≤ d.millis / 2 ^ 51 := by
  obtain ⟨a, ha, hwhole⟩ := amounts_floatOfNat h
  obtain ⟨c, hpart, hc, hnearc⟩ := d.near_part
  have hfits : (d.whole : ℚ) < 2 ^ 64 := by exact_mod_cast h
  have hnonneg : (0 : ℚ) ≤ d.whole := Nat.cast_nonneg _
  have hpart' : (d.part : ℚ) < 10 ^ 9 := by exact_mod_cast Nat.mod_lt d.nanoseconds (by decide)
  have hneara : |a - d.whole| ≤ d.whole / 2 ^ 53 := by
    have hnear := Rounds.near_int (by exact_mod_cast ha : Rounds (d.whole : ℤ) a)
    rw [Int.cast_natCast, abs_of_nonneg hnonneg] at hnear
    exact hnear
  have ha' := ha.ge storable_zero hnonneg
  rw [abs_le] at hneara hnearc
  obtain ⟨n, hn⟩ := hwhole.multiple
  obtain ⟨n', hn'⟩ := hpart.multiple
  obtain ⟨x, hx, hsum⟩ := hwhole.add hpart (lt_top (by
    rw [abs_of_nonneg (add_nonneg ha' hc)]
    linarith))
  have hx' := hx.ge storable_zero (add_nonneg ha' hc)
  have hnearx : |x - (a + c)| ≤ |a + c| / 2 ^ 53 :=
    hx.near_of_multiple (n := n + n') (by rw [hn, hn', Int.cast_add, add_mul])
  rw [abs_of_nonneg (add_nonneg ha' hc), abs_le] at hnearx
  obtain ⟨n, hn⟩ := hsum.multiple
  obtain ⟨t, ht, htick⟩ := hsum.mul amounts_thousand (lt_top (by
    rw [abs_of_nonneg (mul_nonneg hx' (by norm_num))]
    linarith))
  have hneart : |t - x * 1000| ≤ |x * 1000| / 2 ^ 53 :=
    ht.near_of_multiple (n := n * 1000)
      (by rw [hn, mul_right_comm, Int.cast_mul, Int.cast_ofNat])
  rw [abs_of_nonneg (mul_nonneg hx' (by norm_num)), abs_le] at hneart
  refine ⟨t, htick, abs_le.mpr ?_⟩
  rw [millis_eq]
  constructor <;> linarith

/-- A thousandth is stored with more bits after the point than the thousandfold of it, so that the
thousandfold is nearest to the number itself, unless this is a power of two or only just below
one. -/
theorem thousandth_mul {m k : ℕ} (hk : k < 10) (hlow : 2 ^ k < m)
    (hhigh : 512 * m < 1000 * 2 ^ k) {c t : ℚ} (hc : Rounds (m / 1000) c)
    (ht : Rounds (c * 1000) t) (hstored : Storable t) : t = m := by
  have hpow (j : ℕ) : (2 : ℚ) ^ ((k : ℤ) - j) = 2 ^ k / 2 ^ j := by
    rw [zpow_sub₀ two_ne_zero, zpow_natCast, zpow_natCast]
  have hlow' : (2 : ℚ) ^ k + 1 ≤ m := by exact_mod_cast hlow
  have hhigh' : (512 : ℚ) * m + 1 ≤ 1000 * 2 ^ k := by exact_mod_cast hhigh
  have hmost : (2 : ℚ) ^ k ≤ 512 := by
    exact_mod_cast Nat.pow_le_pow_right two_pos (by omega : k ≤ 9)
  have hm : Storable m := by
    have hfew : |(m : ℤ)| < 2 ^ 53 := by
      rw [Nat.abs_cast]
      have : (2 : ℕ) ^ k ≤ 512 := by exact_mod_cast hmost
      omega
    exact_mod_cast storable_int hfew
  have hnearc : |c - m / 1000| ≤ 2 ^ k / 2 ^ 62 / 2 := by
    rw [← hpow]
    refine hc.half_step (by positivity) (by omega) ?_
    rw [hpow]
    linarith
  have hdist : |c * 1000 - m| ≤ 1000 * (2 ^ k / 2 ^ 63) := by
    rw [abs_le] at hnearc ⊢
    constructor <;> linarith
  have hneart : |t - c * 1000| ≤ 1000 * (2 ^ k / 2 ^ 63) := by
    refine (ht.nearest m hm).trans ?_
    rwa [abs_sub_comm]
  have hnear : |t - m| ≤ 1000 * (2 ^ k / 2 ^ 62) := by
    rw [abs_le] at hdist hneart ⊢
    constructor <;> linarith
  have hfull : (2 : ℚ) ^ k ≤ t := by
    rw [abs_le] at hdist
    have hstep : Storable (2 ^ k) :=
      ⟨1, k, by decide, by omega, by rw [Int.cast_one, one_mul, zpow_natCast]⟩
    exact ht.ge hstep (by linarith)
  -- Both are multiples of the step that their binade has, and they are less than one step apart.
  have hstep (y : ℚ) (hy : 2 ^ k ≤ y) :
      2 ^ 52 * 2 ^ ((k : ℤ) - (52 : ℕ)) ≤ |y| ∨ (k : ℤ) - (52 : ℕ) = -1074 := by
    rw [hpow, mul_div_cancel₀ _ (by positivity)]
    exact .inl (hy.trans (le_abs_self y))
  obtain ⟨n, hn⟩ := hstored.multiple (hstep t hfull)
  obtain ⟨n', hn'⟩ := hm.multiple (hstep m (by linarith))
  have hpos : (0 : ℚ) < 2 ^ ((k : ℤ) - (52 : ℕ)) := by positivity
  have hsame : n = n' := by
    have hlt : |((n - n' : ℤ) : ℚ)| < 1 := by
      rw [Int.cast_sub, ← hn, ← hn', ← sub_div, abs_div, abs_of_pos hpos, div_lt_one hpos, hpow]
      have hX : (0 : ℚ) < 2 ^ k := by positivity
      linarith
    exact sub_eq_zero.mp (Int.abs_lt_one_iff.mp (by exact_mod_cast hlt))
  rw [← div_left_inj' hpos.ne', hn, hn', hsame]

theorem tick_of_special : ∀ m < 1000, ¬ (2 ^ m.log2 < m ∧ 512 * m < 1000 * 2 ^ m.log2) →
    (⟨m * 1000000⟩ : Duration).seconds * 1000 = floatOfNat m := by decide +kernel

theorem amounts_tick {m : ℕ} (hm : m < 1000) :
    Amounts ((⟨m * 1000000⟩ : Duration).seconds * 1000) m := by
  by_cases hspecial : 2 ^ m.log2 < m ∧ 512 * m < 1000 * 2 ^ m.log2
  · obtain ⟨hlow, hhigh⟩ := hspecial
    have hm' : (m : ℚ) < 1000 := by exact_mod_cast hm
    have hk : m.log2 < 10 := (Nat.log2_lt (by omega)).mpr (by omega)
    have hseconds : (⟨m * 1000000⟩ : Duration).seconds =
        floatOfNat 0 + floatOfNat (m * 1000000) / 1e9 := by
      have hwhole : m * 1000000 / 1000000000 = 0 := by omega
      have hpart : m * 1000000 % 1000000000 = m * 1000000 := by omega
      rw [seconds, whole, part, perSecond]
      simp only [hwhole, hpart]
    have hquot : ((m * 1000000 : ℕ) : ℚ) / 10 ^ 9 = m / 1000 := by
      push_cast
      ring
    have hthousandth : |(m : ℚ) / 1000| ≤ 1 := by
      rw [abs_of_nonneg (by positivity), div_le_one (by norm_num)]
      exact hm'.le
    obtain ⟨c, hc, hamounts⟩ := (amounts_of_lt (by omega : m * 1000000 < 2 ^ 53)).div
      amounts_perSecond (by norm_num) (lt_top (by rw [hquot]; linarith))
    have hzero : Amounts (floatOfNat 0) 0 := by exact_mod_cast amounts_of_lt (by decide : 0 < 2 ^ 53)
    rw [hquot] at hc
    have hnear := hc.le (storable_int (by decide : |(1 : ℤ)| < 2 ^ 53)) (by
      rw [Int.cast_one]
      exact (le_abs_self _).trans hthousandth)
    have hnonneg := hc.ge storable_zero (by positivity)
    rw [Int.cast_one] at hnear
    obtain ⟨x, hx, hsum⟩ := hzero.add hamounts (lt_top (by
      rw [zero_add, abs_of_nonneg hnonneg]
      linarith))
    rw [zero_add] at hx
    obtain rfl := hx.exact hamounts.storable
    obtain ⟨t, ht, htick⟩ := hsum.mul amounts_thousand (lt_top (by
      rw [abs_of_nonneg (by positivity)]
      linarith))
    rw [hseconds, ← thousandth_mul hk hlow hhigh hc ht htick.storable]
    exact htick
  · rw [tick_of_special m hm hspecial]
    exact amounts_of_lt (hm.trans (by decide))

end Duration

end Cutscene
