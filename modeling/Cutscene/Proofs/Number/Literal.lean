import Cutscene.Number.Decimal

namespace Cutscene

namespace Number

theorem ofDigits_append (cs ds : List Char) :
    ofDigits (cs ++ ds) = ofDigits cs * Nat.pow 10 ds.length + ofDigits ds := by
  change Nat.ofDigitChars 10 (cs ++ ds) 0 = _
  rw [Nat.ofDigitChars_append, Nat.ofDigitChars_eq_ofDigitChars_zero, Nat.mul_comm]
  rfl

theorem ofDigits_cons (c : Char) (cs : List Char) :
    ofDigits (c :: cs) = digitValue c * Nat.pow 10 cs.length + ofDigits cs := by
  have h := ofDigits_append [c] cs
  simpa [ofDigits] using h

theorem ofDigits_digits (n : Nat) : ofDigits (digits n) = n := Nat.ofDigitChars_ten_toDigits

theorem isDigit_of_mem_digits {n : Nat} {c : Char} (h : c ∈ digits n) : c.isDigit = true :=
  Nat.isDigit_of_mem_toDigits (by decide) (by decide) h

theorem all_isDigit_digits (n : Nat) : (digits n).all Char.isDigit = true :=
  List.all_eq_true.mpr fun _ h => isDigit_of_mem_digits h

theorem readNatural_digits (n : Nat) : readNatural (digits n) = some n := by
  have hne : digits n ≠ [] := Nat.toDigits_ne_nil
  rw [readNatural, if_pos ⟨hne, all_isDigit_digits n⟩, ofDigits_digits]

theorem ofDigits_padded (width : Nat) (cs : List Char) :
    ofDigits (padded width cs) = ofDigits cs := by
  have hzeros : ofDigits (List.replicate (width - cs.length) '0') = 0 :=
    Nat.ofDigitChars_replicate_zero
  rw [padded, ofDigits_append, hzeros, Nat.zero_mul, Nat.zero_add]

theorem length_padded_digits {width n : Nat} (hwidth : width ≠ 0) (h : n < Nat.pow 10 width) :
    (padded width (digits n)).length = width := by
  have hlength : (digits n).length ≤ width :=
    (Nat.length_toDigits_le_iff (by decide) (Nat.pos_of_ne_zero hwidth)).mpr h
  simp only [padded, List.length_append, List.length_replicate]
  omega

theorem isDigit_of_mem_padded {width : Nat} {cs : List Char} (h : ∀ c ∈ cs, c.isDigit = true) :
    ∀ c ∈ padded width cs, c.isDigit = true := by
  intro c hc
  rcases List.mem_append.mp hc with hc | hc
  · rw [List.eq_of_mem_replicate hc]
    rfl
  · exact h c hc

theorem splitAtPoint_fixed (n places : Nat) :
    ∃ whole fraction, splitAtPoint (fixed n places) = some (whole, fraction) ∧
      ofDigits whole = n / Nat.pow 10 places ∧ ofDigits (whole ++ fraction) = n ∧
        fraction.length = places := by
  by_cases hplaces : places = 0
  · subst hplaces
    refine ⟨digits n, [], ?_, ?_, ?_, rfl⟩
    · have hall := List.all_eq_true.mp (all_isDigit_digits n)
      have htake : (digits n).takeWhile Char.isDigit = digits n := by
        simpa using @List.takeWhile_append_of_pos _ _ _ [] hall
      have hdrop : (digits n).dropWhile Char.isDigit = [] := by
        simpa using @List.dropWhile_append_of_pos _ _ _ [] hall
      rw [fixed, if_pos rfl, splitAtPoint, htake, hdrop]
      simp [digits]
    · simp [ofDigits_digits]
    · simp [ofDigits_digits]
  · have hlt : n % Nat.pow 10 places < Nat.pow 10 places := Nat.mod_lt n (Nat.pow_pos (by decide))
    have hlength := length_padded_digits hplaces hlt
    have hwhole := List.all_eq_true.mp (all_isDigit_digits (n / Nat.pow 10 places))
    have hfraction : (padded places (digits (n % Nat.pow 10 places))).all Char.isDigit = true :=
      List.all_eq_true.mpr (isDigit_of_mem_padded fun _ h => isDigit_of_mem_digits h)
    have hne : digits (n / Nat.pow 10 places) ≠ [] := Nat.toDigits_ne_nil
    refine ⟨digits (n / Nat.pow 10 places), padded places (digits (n % Nat.pow 10 places)),
      ?_, ofDigits_digits _, ?_, hlength⟩
    · rw [fixed, if_neg hplaces, splitAtPoint, List.takeWhile_append_of_pos hwhole,
        List.dropWhile_append_of_pos hwhole]
      have hpoint : ¬ ('.' : Char).isDigit = true := by decide
      simp only [List.takeWhile_cons_of_neg hpoint, List.dropWhile_cons_of_neg hpoint,
        List.append_nil]
      rw [if_pos ⟨trivial, hfraction, fun h => hne h.1⟩]
    · rw [ofDigits_append, hlength, ofDigits_padded, ofDigits_digits, ofDigits_digits]
      exact Nat.div_add_mod' n (Nat.pow 10 places)

theorem mem_fixed {n places : Nat} {c : Char} (h : c ∈ fixed n places) :
    c.isDigit = true ∨ c = '.' := by
  rw [fixed] at h
  split at h
  · exact .inl (isDigit_of_mem_digits h)
  · rcases List.mem_append.mp h with h | h
    · exact .inl (isDigit_of_mem_digits h)
    · rcases List.mem_cons.mp h with h | h
      · exact .inr h
      · exact .inl (isDigit_of_mem_padded (fun _ h => isDigit_of_mem_digits h) c h)

theorem fixed_ne_nil (n places : Nat) : fixed n places ≠ [] := by
  rw [fixed]
  split <;> simp [digits]

theorem Format.read_fixed (f : Format) (n places : Nat) :
    f.read (fixed n places) = some (f.round n (Nat.pow 10 places)) := by
  obtain ⟨whole, fraction, hsplit, -, hvalue, hlength⟩ := splitAtPoint_fixed n places
  rw [Format.read, hsplit, Option.map_some]
  simp only [hvalue, hlength]

end Number

namespace Decimal

open Number

theorem absorb_eq {cs : List Char} {mantissa scale : Nat}
    (hbound : mantissa * Nat.pow 10 cs.length + ofDigits cs < bound)
    (hscale : scale + cs.length ≤ 28) :
    absorb mantissa scale cs =
      (mantissa * Nat.pow 10 cs.length + ofDigits cs, scale + cs.length, []) := by
  induction cs generalizing mantissa scale with
  | nil => simp [absorb, ofDigits]
  | cons c cs ih =>
    have hvalue : (10 * mantissa + digitValue c) * Nat.pow 10 cs.length + ofDigits cs =
        mantissa * Nat.pow 10 (c :: cs).length + ofDigits (c :: cs) := by
      rw [ofDigits_cons, List.length_cons, Nat.add_mul, Nat.pow_eq, Nat.pow_eq, Nat.pow_succ,
        Nat.add_assoc, Nat.mul_comm 10, Nat.mul_assoc mantissa, Nat.mul_comm 10]
    rw [← hvalue] at hbound ⊢
    have hpow : 0 < Nat.pow 10 cs.length := Nat.pow_pos (by decide)
    have hle := Nat.le_mul_of_pos_right (10 * mantissa + digitValue c) hpow
    have hnext : 10 * mantissa + digitValue c < bound := by omega
    rw [List.length_cons] at hscale ⊢
    rw [absorb, if_pos ⟨by omega, hnext⟩, ih hbound (by omega)]
    simp only [Prod.mk.injEq, and_true, true_and]
    omega

theorem text_of_nonneg {d : Decimal} (h : 0 ≤ d.mantissa) :
    d.text = fixed d.mantissa.natAbs d.scale := if_neg (Int.not_lt.mpr h)

theorem read_text {d : Decimal} (h : 0 ≤ d.mantissa) : read d.text = some d := by
  obtain ⟨mantissa, scale, hmantissa, hscale⟩ := d
  obtain ⟨n, rfl⟩ := Int.eq_ofNat_of_zero_le h
  obtain ⟨whole, fraction, hsplit, hwhole, hvalue, rfl⟩ := splitAtPoint_fixed n scale
  have habsorb : absorb (ofDigits whole) 0 fraction = (n, fraction.length, []) := by
    rw [ofDigits_append] at hvalue
    rw [absorb_eq (by rw [hvalue]; exact hmantissa) (by omega), hvalue, Nat.zero_add]
  have hinteger : ¬ bound ≤ ofDigits whole := by
    rw [hwhole]
    exact Nat.not_le.mpr (Nat.lt_of_le_of_lt (Nat.div_le_self _ _) hmantissa)
  have hlt : n < bound := hmantissa
  rw [text_of_nonneg h, read]
  simp only [Int.natAbs_natCast, hsplit, Option.bind_eq_bind, Option.bind_some, if_neg hinteger,
    habsorb, List.head?_nil, Option.any_none, Bool.false_eq_true, if_false, if_pos hlt]
  exact dif_pos ⟨hmantissa, hscale⟩

theorem mantissa_of_ofParts? {mantissa : Int} {scale : Nat} {d : Decimal}
    (h : ofParts? mantissa scale = some d) : d.mantissa = mantissa := by
  rw [ofParts?] at h
  split at h
  · cases h
    rfl
  · cases h

theorem nonneg_of_read {cs : List Char} {d : Decimal} (h : read cs = some d) : 0 ≤ d.mantissa := by
  have hrounded (rounded scale : Nat)
      (h : (if rounded < bound then ofParts? rounded scale
        else if scale = 0 then none
        else ofParts? ((rounded + 4) / 10 : Nat) (scale - 1)) = some d) : 0 ≤ d.mantissa := by
    split at h
    · rw [mantissa_of_ofParts? h]
      exact Int.natCast_nonneg _
    · split at h
      · cases h
      · rw [mantissa_of_ofParts? h]
        exact Int.natCast_nonneg _
  rw [read] at h
  obtain ⟨⟨whole, fraction⟩, -, h⟩ := Option.bind_eq_some_iff.mp h
  simp only at h
  split at h
  · cases h
  · exact hrounded _ _ h

end Decimal

end Cutscene
