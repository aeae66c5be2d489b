import Cutscene.Proofs.Number.Literal

namespace Cutscene.Number.Format

variable {f : Format}

theorem binade_pos (f : Format) : 0 < f.binade := Nat.pow_pos (by decide)

theorem one_pos (f : Format) : 0 < f.one := Nat.pow_pos (by decide)

theorem log2_mul_pow {n : Nat} (hn : n ≠ 0) (e : Nat) : (n * Nat.pow 2 e).log2 = n.log2 + e := by
  induction e with
  | zero => rw [Nat.pow_eq, Nat.pow_zero, Nat.mul_one, Nat.add_zero]
  | succ e ih =>
    have hne : n * Nat.pow 2 e ≠ 0 := Nat.mul_ne_zero hn (Nat.ne_of_gt (Nat.pow_pos (by decide)))
    have hpow : n * Nat.pow 2 (e + 1) = 2 * (n * Nat.pow 2 e) := by
      rw [Nat.pow_eq, Nat.pow_succ, Nat.mul_comm 2, Nat.mul_assoc]
      rfl
    rw [hpow, Nat.log2_two_mul hne, ih, Nat.add_assoc]

theorem units_eq (hprecision : 0 < f.precision) (magnitude : Nat) :
    ∃ quotient, f.units magnitude =
        quotient * Nat.pow 2 ((f.units magnitude).log2 + 1 - f.precision) ∧
      quotient + ((f.units magnitude).log2 + 1 - f.precision) * f.binade = magnitude := by
  have hbinade : f.binade = 2 ^ (f.precision - 1) := rfl
  have hprecision' : f.precision = f.precision - 1 + 1 := by omega
  by_cases hsmall : magnitude < f.binade
  · have hshift : magnitude.log2 + 1 - f.precision = 0 := by
      by_cases hzero : magnitude = 0
      · subst hzero
        rw [Nat.log2_zero]
        omega
      · have hlog := (Nat.log2_lt hzero).mpr (hbinade ▸ hsmall)
        omega
    have hunits : f.units magnitude = magnitude := if_pos hsmall
    refine ⟨magnitude, ?_, ?_⟩
    · rw [hunits, hshift]
      exact (Nat.mul_one magnitude).symm
    · rw [hunits, hshift, Nat.zero_mul, Nat.add_zero]
  · have hquot : 0 < magnitude / f.binade := Nat.div_pos (Nat.le_of_not_lt hsmall) f.binade_pos
    have hunits : f.units magnitude =
        (f.binade + magnitude % f.binade) * Nat.pow 2 (magnitude / f.binade - 1) := if_neg hsmall
    have hne : f.binade + magnitude % f.binade ≠ 0 := by
      have := f.binade_pos
      omega
    have hlog : (f.binade + magnitude % f.binade).log2 = f.precision - 1 := by
      have hmod := Nat.mod_lt magnitude f.binade_pos
      refine (Nat.log2_eq_iff hne).mpr ⟨?_, ?_⟩
      · rw [← hbinade]
        exact Nat.le_add_right _ _
      · rw [Nat.pow_succ, ← hbinade]
        omega
    have hshift : (f.units magnitude).log2 + 1 - f.precision = magnitude / f.binade - 1 := by
      rw [hunits, log2_mul_pow hne, hlog]
      omega
    refine ⟨f.binade + magnitude % f.binade, ?_, ?_⟩
    · rw [hshift]
      exact hunits
    · have hdiv := Nat.div_add_mod' magnitude f.binade
      have hmul : (magnitude / f.binade - 1) * f.binade + f.binade =
          magnitude / f.binade * f.binade := by
        rw [← Nat.succ_mul]
        congr 1
        omega
      rw [hshift]
      omega

theorem round_units (hprecision : 0 < f.precision) {magnitude c : Nat}
    (hfinite : magnitude < f.infinity) (hc : 0 < c) :
    f.round (f.units magnitude * c) (f.one * c) = magnitude := by
  have hden : 0 < f.one * c := Nat.mul_pos f.one_pos hc
  have hnum : f.units magnitude * c * f.one = f.units magnitude * (f.one * c) := by
    rw [Nat.mul_assoc, Nat.mul_comm c]
  obtain ⟨quotient, hquotient, hmagnitude⟩ := units_eq hprecision magnitude
  rw [round, hnum]
  simp only [Nat.mul_div_cancel _ hden]
  generalize (f.units magnitude).log2 + 1 - f.precision = shift at *
  have hround : roundDiv .toEven (f.units magnitude * (f.one * c)) (f.one * c * Nat.pow 2 shift) =
      quotient := by
    rw [Nat.mul_comm (f.one * c) (Nat.pow 2 shift), roundDiv_mul_right _ _ _ hden, hquotient]
    exact roundDiv_exact _ _ (Nat.pow_pos (by decide))
  rw [hround, hmagnitude]
  exact Nat.min_eq_left (Nat.le_of_lt hfinite)

theorem roundsTo_exactly (hprecision : 0 < f.precision) {magnitude : Nat}
    (hfinite : magnitude < f.infinity) : f.roundsTo magnitude (f.exactly magnitude) = true := by
  have hlog : f.one = 2 ^ f.one.log2 := by
    rw [one, Nat.pow_eq, Nat.log2_two_pow]
  have hden : (f.exactly magnitude).denominator = f.one * 5 ^ f.one.log2 := by
    have hpow : (10 : Nat) ^ f.one.log2 = 2 ^ f.one.log2 * 5 ^ f.one.log2 := by
      rw [← Nat.mul_pow]
    rw [← hlog] at hpow
    simpa [Scientific.denominator, exactly] using hpow
  have hnum : (f.exactly magnitude).numerator = f.units magnitude * 5 ^ f.one.log2 := by
    simp [Scientific.numerator, exactly]
  rw [roundsTo, hden, hnum, round_units hprecision hfinite (Nat.pow_pos (by decide))]
  exact beq_self_eq_true magnitude

theorem round_zero (hprecision : 0 < f.precision) : f.round 0 1 = 0 := by
  have hshift : 0 + 1 - f.precision = 0 := by omega
  simp [round, roundDiv, hshift]

/-- Every candidate for the shortest decimal is tried out before it is taken. -/
theorem roundsTo_shortest (hprecision : 0 < f.precision) {tie : Tie} {magnitude : Nat}
    (hfinite : magnitude < f.infinity) :
    f.roundsTo magnitude (f.shortest tie magnitude) = true := by
  rw [shortest]
  split
  · rename_i hzero
    subst hzero
    exact beq_iff_eq.mpr (round_zero hprecision)
  · cases hfind : (f.candidates tie magnitude).find? (f.roundsTo magnitude) with
    | some d => exact List.find?_some hfind
    | none => exact roundsTo_exactly hprecision hfinite

theorem readFinite_plain (hprecision : 0 < f.precision) {tie : Tie} {magnitude : Nat}
    (hfinite : magnitude < f.infinity) :
    f.readFinite (f.shortest tie magnitude).plain = some magnitude := by
  have h := beq_iff_eq.mp (@roundsTo_shortest f hprecision tie magnitude hfinite)
  have hread : f.read (f.shortest tie magnitude).plain = some magnitude :=
    (read_fixed f _ _).trans (congrArg some h)
  rw [readFinite, hread]
  exact Option.filter_some_pos (decide_eq_true hfinite)

end Cutscene.Number.Format
