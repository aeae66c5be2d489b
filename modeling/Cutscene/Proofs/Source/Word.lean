import Cutscene.Proofs.Number.Double
import Cutscene.Proofs.Source.Token

namespace Cutscene

open Number

/-- Numbers that are written as numbers. The text of any other number is read as a string. -/
def Value.Legible : Value → Prop
  | .decimal value => 0 ≤ value.mantissa
  | .double value => value.bits.toNat < Format.double.infinity
  | .float value => value.bits.toNat < Format.single.infinity
  | .int value => 0 ≤ value.toInt
  | .boolean _ | .char _ | .string _ | .uint _ => True

instance : DecidablePred Value.Legible
  | .decimal value => inferInstanceAs (Decidable (0 ≤ value.mantissa))
  | .double value => inferInstanceAs (Decidable (value.bits.toNat < Format.double.infinity))
  | .float value => inferInstanceAs (Decidable (value.bits.toNat < Format.single.infinity))
  | .int value => inferInstanceAs (Decidable (0 ≤ value.toInt))
  | .boolean _ | .char _ | .string _ | .uint _ => .isTrue trivial

def Value.chars : Value → List Char
  | .char value => [value]
  | .string value => value.toList
  | _ => []

namespace Source

theorem isNumeric_ascii : ∀ n : Fin 0x80, isNumeric (Char.ofNat n) = true →
    (Char.ofNat n).toLower = Char.ofNat n := by
  decide +kernel

theorem toLower_of_isNumeric {c : Char} (h : isNumeric c = true) : c.toLower = c := by
  have hlt : c.toNat < 0x80 := by
    rcases Bool.or_eq_true_iff.mp h with h | h
    · have hle := (Char.isDigit_iff_toNat.mp h).2
      exact Nat.lt_of_le_of_lt hle (by decide)
    · rw [beq_iff_eq.mp h]
      decide
  have hlower := isNumeric_ascii ⟨c.toNat, hlt⟩
  simp only [Char.ofNat_toNat] at hlower
  exact hlower h

theorem shape_concat {body : List Char} {last : Char} (hne : body ≠ [])
    (htrue : (body ++ [last]).map Char.toLower ≠ ['t', 'r', 'u', 'e'])
    (hfalse : (body ++ [last]).map Char.toLower ≠ ['f', 'a', 'l', 's', 'e']) :
    shape (body ++ [last]) = if body.all isNumeric then .numeric body last else .text := by
  cases body with
  | nil => exact absurd rfl hne
  | cons c cs =>
    have hdrop : (c :: cs ++ [last]).dropLast = c :: cs := List.dropLast_concat
    have hlast : (c :: cs ++ [last]).getLast (by simp) = last := List.getLast_concat
    rw [shape.eq_def]
    simp only [if_neg htrue, if_neg hfalse]
    cases cs with
    | nil => rfl
    | cons d ds =>
      simp only [List.cons_append] at hdrop hlast ⊢
      rw [List.getLast_cons (by simp)] at hlast
      rw [hdrop, hlast]

theorem shape_of_numeric {body : List Char} (hne : body ≠ [])
    (h : ∀ c ∈ body, isNumeric c = true) (last : Char) :
    shape (body ++ [last]) = .numeric body last := by
  have hfolded (d : Char) (ds : List Char) (hd : isNumeric d = false) :
      (body ++ [last]).map Char.toLower ≠ d :: ds := by
    intro heq
    cases body with
    | nil => exact hne rfl
    | cons c cs =>
      have hc := h c List.mem_cons_self
      have hcd : c = d := by
        rw [← toLower_of_isNumeric hc]
        exact (List.cons.inj heq).1
      rw [← hcd, hc] at hd
      cases hd
  rw [shape_concat hne (hfolded _ _ (by decide)) (hfolded _ _ (by decide)),
    if_pos (List.all_eq_true.mpr h)]

/-- A word that begins like no number is a text, unless it ends like a truth value. -/
theorem shape_of_not_numeric {c last : Char} (hc : isNumeric c = false) (hlast : last.toLower ≠ 'e')
    (cs : List Char) : shape (c :: cs ++ [last]) = .text := by
  have hfolded (ds : List Char) (hds : ds.getLast? = some 'e') :
      (c :: cs ++ [last]).map Char.toLower ≠ ds := by
    intro heq
    rw [← heq, List.map_append, List.map_singleton, List.getLast?_concat] at hds
    exact hlast (Option.some.inj hds)
  rw [shape_concat (List.cons_ne_nil c cs) (hfolded _ rfl) (hfolded _ rfl)]
  simp [hc]

theorem shape_fixed (n places : Nat) (last : Char) :
    shape (fixed n places ++ [last]) = .numeric (fixed n places) last := by
  apply shape_of_numeric (fixed_ne_nil n places)
  intro c hc
  rcases mem_fixed hc with hdigit | rfl
  · rw [isNumeric, hdigit, Bool.true_or]
  · rfl

theorem readWord_decimal {d : Decimal} (h : 0 ≤ d.mantissa) :
    readWord (write (.decimal d)) = .ok (.decimal d) := by
  have hread := Decimal.read_text h
  rw [Decimal.text_of_nonneg h] at hread
  rw [write, Decimal.text_of_nonneg h, readWord, shape_fixed]
  change (required _ .decimal (Decimal.read _)).map Value.decimal = _
  rw [hread]
  rfl

theorem readWord_double {x : Double} (h : x.bits.toNat < Format.double.infinity) :
    readWord (write (.double x)) = .ok (.double x) := by
  have hread := Double.read_text h
  rw [Double.text, Format.text_of_lt_infinity h] at hread
  rw [write, Double.text, Format.text_of_lt_infinity h, readWord, Scientific.plain, shape_fixed]
  change (required _ .double (Double.read _)).map Value.double = _
  rw [← Scientific.plain, hread]
  rfl

theorem readWord_float {x : Single} (h : x.bits.toNat < Format.single.infinity) :
    readWord (write (.float x)) = .ok (.float x) := by
  have hread := Single.read_text h
  rw [Single.text, Format.text_of_lt_infinity h] at hread
  rw [write, Single.text, Format.text_of_lt_infinity h, readWord, Scientific.plain, shape_fixed]
  change (required _ .float (Single.read _)).map Value.float = _
  rw [← Scientific.plain, hread]
  rfl

theorem readWord_uint (n : UInt32) : readWord (write (.uint n)) = .ok (.uint n) := by
  have hlt : decide (n.toNat < 0x100000000) = true := decide_eq_true n.toNat_lt
  have hread : readUInt (digits n.toNat) = some n := by
    simp only [readUInt, readNatural_digits, Option.filter_some, hlt, if_true, Option.map_some,
      UInt32.ofNat_toNat]
  have hshape := shape_fixed n.toNat 0 'u'
  rw [fixed, if_pos rfl] at hshape
  rw [write, readWord, hshape]
  change (required _ .uint (readUInt _)).map Value.uint = _
  rw [hread]
  rfl

theorem readInt_digits {n : Int32} (h : 0 ≤ n.toInt) :
    readInt (digits n.toInt.natAbs) = some n := by
  have hlt : decide (n.toInt.natAbs < 0x80000000) = true := by
    have hlt := n.toInt_lt
    exact decide_eq_true (by omega)
  have hvalue : Int32.ofNat n.toInt.natAbs = n := by
    rw [← Int32.ofInt_eq_ofNat, Int.natAbs_of_nonneg h, Int32.ofInt_toInt]
  simp only [readInt, readNatural_digits, Option.filter_some, hlt, if_true, Option.map_some, hvalue]

theorem readWord_digits (n : Nat) :
    readWord (digits n) = (required (digits n) .int (readInt (digits n))).map .int := by
  by_cases hsmall : n < 10
  · have hdigits : digits n = [n.digitChar] := Nat.toDigits_of_lt_base hsmall
    have hdigit : n.digitChar.isDigit = true := by
      apply isDigit_of_mem_digits
      rw [hdigits]
      exact List.mem_singleton_self _
    have hshape : shape [n.digitChar] = .digit := by
      simp [shape, hdigit]
    rw [hdigits, readWord, hshape]
  · have hdigits : digits n = digits (n / 10) ++ [(n % 10).digitChar] :=
      Nat.toDigits_of_base_le (by decide) (Nat.le_of_not_lt hsmall)
    have hdigit : (n % 10).digitChar.isDigit = true := by
      apply isDigit_of_mem_digits
      rw [hdigits]
      exact List.mem_append_right _ (List.mem_singleton_self _)
    have hlower : (n % 10).digitChar.toLower = (n % 10).digitChar :=
      toLower_of_isNumeric (by rw [isNumeric, hdigit, Bool.true_or])
    have hshape := shape_fixed (n / 10) 0 (n % 10).digitChar
    rw [fixed, if_pos rfl, ← hdigits] at hshape
    rw [readWord, hshape]
    simp only [hlower]
    have hletter (c : Char) (hc : c.isDigit = false) : (n % 10).digitChar ≠ c := by
      intro heq
      rw [← heq, hdigit] at hc
      cases hc
    split
    · exact absurd ‹_› (hletter _ (by decide))
    · exact absurd ‹_› (hletter _ (by decide))
    · exact absurd ‹_› (hletter _ (by decide))
    · exact absurd ‹_› (hletter _ (by decide))
    · rfl

theorem readWord_int {n : Int32} (h : 0 ≤ n.toInt) : readWord (write (.int n)) = .ok (.int n) := by
  rw [write, intDigits, if_neg (Int.not_lt.mpr h), readWord_digits, readInt_digits h]
  rfl

theorem readWord_of_not_legible {v : Value} (h : ¬ v.Legible) :
    readWord (write v) = .ok (.string (String.ofList (write v))) := by
  have htext {c last : Char} {cs : List Char} (hc : isNumeric c = false)
      (hlast : last.toLower ≠ 'e') :
      readWord (c :: cs ++ [last]) = .ok (.string (String.ofList (c :: cs ++ [last]))) := by
    rw [readWord, shape_of_not_numeric hc hlast]
  have hfirst {c : Char} (hc : c ∈ ['-', 'N', 'i']) : isNumeric c = false := by
    simp only [List.mem_cons, List.not_mem_nil, or_false] at hc
    rcases hc with rfl | rfl | rfl <;> rfl
  cases v with
  | boolean | char | string | uint => exact absurd trivial h
  | decimal d =>
    have hnegative : d.mantissa < 0 := Int.not_le.mp h
    rw [write, Decimal.text, if_pos hnegative]
    exact htext rfl (by decide)
  | double x =>
    obtain ⟨c, cs, heq, hc⟩ := Format.text_of_infinity_le (Nat.not_lt.mp h)
    rw [write, Double.text, heq]
    exact htext (hfirst hc) (by decide)
  | float x =>
    obtain ⟨c, cs, heq, hc⟩ := Format.text_of_infinity_le (Nat.not_lt.mp h)
    rw [write, Single.text, heq]
    exact htext (hfirst hc) (by decide)
  | int n =>
    have hnegative : n.toInt < 0 := Int.not_le.mp h
    obtain ⟨init, last, hdigits⟩ : ∃ init last, digits n.toInt.natAbs = init ++ [last] :=
      ⟨_, _, (List.dropLast_concat_getLast Nat.toDigits_ne_nil).symm⟩
    have hlast : isNumeric last = true := by
      rw [isNumeric, isDigit_of_mem_digits (n := n.toInt.natAbs) (by simp [hdigits]), Bool.true_or]
    rw [write, intDigits, if_pos hnegative, hdigits]
    apply htext rfl
    rw [toLower_of_isNumeric hlast]
    rintro rfl
    exact absurd hlast (by decide)

theorem required_eq_ok {α : Type} {literal : List Char} {kind : Kind} {value : Option α} {a : α}
    (h : required literal kind value = .ok a) : value = some a := by
  cases value with
  | none => cases h
  | some b => exact congrArg some (Except.ok.inj h)

theorem nonneg_of_readInt {cs : List Char} {n : Int32} (h : readInt cs = some n) : 0 ≤ n.toInt := by
  obtain ⟨value, hvalue, rfl⟩ := Option.map_eq_some_iff.mp h
  have hlt : value < 0x80000000 := of_decide_eq_true (Option.filter_eq_some_iff.mp hvalue).2
  rw [Int32.toInt_ofNat_of_lt hlt]
  exact Int.natCast_nonneg value

theorem legible_of_readWord {word : List Char} {v : Value} (h : readWord word = .ok v) :
    v.Legible ∧ ∀ c ∈ v.chars, c ∈ word := by
  have hint {word : List Char} (h : (required word .int (readInt word)).map Value.int = .ok v) :
      v.Legible ∧ v.chars = [] := by
    obtain ⟨n, hn, rfl⟩ := map_eq_ok h
    exact ⟨nonneg_of_readInt (required_eq_ok hn), rfl⟩
  have hchars (h : v.Legible ∧ v.chars = []) : v.Legible ∧ ∀ c ∈ v.chars, c ∈ word := by
    rw [h.2]
    exact ⟨h.1, nofun⟩
  rw [readWord] at h
  split at h
  · cases h
    exact hchars ⟨trivial, rfl⟩
  · exact hchars (hint h)
  · cases h
    refine ⟨trivial, ?_⟩
    rw [Value.chars, String.toList_ofList]
    exact fun c hc => hc
  · split at h
    · obtain ⟨d, hd, rfl⟩ := map_eq_ok h
      exact hchars ⟨Decimal.nonneg_of_read (required_eq_ok hd), rfl⟩
    · obtain ⟨x, hx, rfl⟩ := map_eq_ok h
      exact hchars ⟨Double.bits_lt_of_read (required_eq_ok hx), rfl⟩
    · obtain ⟨x, hx, rfl⟩ := map_eq_ok h
      exact hchars ⟨Single.bits_lt_of_read (required_eq_ok hx), rfl⟩
    · obtain ⟨n, -, rfl⟩ := map_eq_ok h
      exact hchars ⟨trivial, rfl⟩
    · exact hchars (hint h)

end Source

end Cutscene
