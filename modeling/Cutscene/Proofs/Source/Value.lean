import Cutscene.Proofs.Source.Word

namespace Cutscene

open Number

/-- What becomes of a value that is written and read back. -/
def Value.echo (v : Value) : Value :=
  if v.Legible then v else .string (String.ofList (Source.write v))

def Value.token : Value → Source.Token
  | .char value => .char value
  | .string value =>
      if Source.needsQuotes value.toList then .quoted value.toList else .plain value.toList
  | v => .plain (Source.write v)

namespace Source

def isOrdinary (c : Char) : Bool := !isSpecial c && c != ' ' && !isIgnored c

theorem ordinary_iff {c : Char} :
    isOrdinary c = true ↔ isSpecial c = false ∧ c ≠ ' ' ∧ isIgnored c = false := by
  simp [isOrdinary, and_assoc]

theorem isOrdinary_of {p : Char → Bool}
    (hp : ['#', '"', '\'', '\\', ' ', '\r', '\n', '\t'].all (!p ·) = true) {c : Char}
    (h : p c = true) : isOrdinary c = true := by
  have hne (d : Char) (hd : d ∈ ['#', '"', '\'', '\\', ' ', '\r', '\n', '\t']) :
      (c == d) = false := by
    rw [beq_eq_false_iff_ne]
    rintro rfl
    have hnot := List.all_eq_true.mp hp c hd
    rw [h] at hnot
    cases hnot
  simp [isOrdinary, isSpecial, isIgnored, bne, hne]

theorem isOrdinary_of_isDigit {c : Char} (h : c.isDigit = true) : isOrdinary c = true :=
  isOrdinary_of (by decide) h

theorem value_token (v : Value) : v.token.value = .ok v.echo := by
  by_cases hlegible : v.Legible
  · rw [Value.echo, if_pos hlegible]
    cases v with
    | boolean b => cases b <;> rfl
    | char c => rfl
    | string s =>
      rw [Value.token]
      split
      · rw [Token.value, String.ofList_toList]
      · rename_i hquotes
        have hshape : shape s.toList = .text := by
          simp only [needsQuotes, Bool.or_eq_true, not_or] at hquotes
          simpa using hquotes.2
        rw [Token.value, readWord, hshape]
        simp only [String.ofList_toList]
    | decimal d => exact readWord_decimal hlegible
    | double x => exact readWord_double hlegible
    | float x => exact readWord_float hlegible
    | int n => exact readWord_int hlegible
    | uint n => exact readWord_uint n
  · rw [Value.echo, if_neg hlegible]
    have hread := readWord_of_not_legible hlegible
    cases v with
    | boolean | char | string | uint => exact absurd trivial hlegible
    | decimal | double | float | int => exact hread

theorem isOrdinary_of_mem_text {f : Format} {bits : Nat} {c : Char} (h : c ∈ f.text bits) :
    isOrdinary c = true := by
  rcases Format.mem_text h with hdigit | hletter
  · exact isOrdinary_of_isDigit hdigit
  · simp only [List.mem_cons, List.not_mem_nil, or_false] at hletter
    rcases hletter with rfl | rfl | rfl | rfl | rfl | rfl | rfl <;> rfl

theorem isOrdinary_of_mem_signed {p : Prop} [Decidable p] {n places : Nat} {c : Char}
    (h : c ∈ if p then '-' :: fixed n places else fixed n places) : isOrdinary c = true := by
  have hfixed (h : c ∈ fixed n places) : isOrdinary c = true := by
    rcases mem_fixed h with hdigit | rfl
    · exact isOrdinary_of_isDigit hdigit
    · rfl
  split at h
  · rcases List.mem_cons.mp h with rfl | h
    · rfl
    · exact hfixed h
  · exact hfixed h

theorem write_cases (v : Value) :
    (∃ c, v = .char c) ∨ (∃ s, v = .string s) ∨
      (v.token = .plain (write v) ∧ write v ≠ [] ∧ ∀ c ∈ write v, isOrdinary c = true) := by
  have hsuffix {cs : List Char} {last : Char} (hlast : isOrdinary last = true)
      (hcs : ∀ c ∈ cs, isOrdinary c = true) :
      cs ++ [last] ≠ [] ∧ ∀ c ∈ cs ++ [last], isOrdinary c = true := by
    refine ⟨by simp, ?_⟩
    intro c hc
    rcases List.mem_append.mp hc with hc | hc
    · exact hcs c hc
    · rw [List.mem_singleton.mp hc]
      exact hlast
  cases v with
  | char c => exact .inl ⟨c, rfl⟩
  | string s => exact .inr (.inl ⟨s, rfl⟩)
  | boolean b => refine .inr (.inr ⟨rfl, ?_⟩); cases b <;> simp [write] <;> decide
  | decimal d => exact .inr (.inr ⟨rfl, hsuffix rfl fun c hc => isOrdinary_of_mem_signed hc⟩)
  | double x => exact .inr (.inr ⟨rfl, hsuffix rfl fun c hc => isOrdinary_of_mem_text hc⟩)
  | float x => exact .inr (.inr ⟨rfl, hsuffix rfl fun c hc => isOrdinary_of_mem_text hc⟩)
  | uint n =>
    refine .inr (.inr ⟨rfl, hsuffix rfl fun c hc => ?_⟩)
    exact isOrdinary_of_isDigit (isDigit_of_mem_digits hc)
  | int n =>
    refine .inr (.inr ⟨rfl, ?_, ?_⟩)
    · rw [write, intDigits]
      split
      · exact List.cons_ne_nil _ _
      · exact Nat.toDigits_ne_nil
    · intro c hc
      exact @isOrdinary_of_mem_signed (n.toInt < 0) _ n.toInt.natAbs 0 c hc

theorem quiet_write (v : Value) : Quiet (write v) := by
  have hquote {c : Char} (hc : isSpecial c = true) (hbackslash : c ≠ '\\') (hmark : c ≠ '#')
      (cs : List Char) : Quiet (c :: escape cs ++ [c]) :=
    ((quiet_singleton hbackslash hmark).append (quiet_escape cs)).append
      (quiet_singleton hbackslash hmark)
  rcases write_cases v with ⟨c, rfl⟩ | ⟨s, rfl⟩ | ⟨-, -, hordinary⟩
  · exact hquote rfl (by decide) (by decide) [c]
  · rw [write]
    split
    · exact hquote rfl (by decide) (by decide) s.toList
    · exact quiet_escape s.toList
  · rw [← escape_eq_self fun c hc => (ordinary_iff.mp (hordinary c hc)).1]
    exact quiet_escape (write v)

theorem isIgnored_of_mem_write {v : Value} (h : ∀ c ∈ v.chars, isIgnored c = false) :
    ∀ c ∈ write v, isIgnored c = false := by
  have hescape {cs : List Char} (hcs : ∀ c ∈ cs, isIgnored c = false) :
      ∀ c ∈ escape cs, isIgnored c = false := by
    intro c hc
    rcases mem_escape hc with rfl | hc
    · rfl
    · exact hcs c hc
  have hquote {q : Char} (hq : isIgnored q = false) {cs : List Char}
      (hcs : ∀ c ∈ cs, isIgnored c = false) : ∀ c ∈ q :: escape cs ++ [q], isIgnored c = false := by
    intro c hc
    simp only [List.cons_append, List.mem_cons, List.mem_append, List.not_mem_nil, or_false] at hc
    rcases hc with rfl | hc | rfl
    · exact hq
    · exact hescape hcs c hc
    · exact hq
  rcases write_cases v with ⟨c, rfl⟩ | ⟨s, rfl⟩ | ⟨-, -, hordinary⟩
  · exact hquote rfl h
  · rw [write]
    split
    · exact hquote rfl h
    · exact hescape h
  · exact fun c hc => (ordinary_iff.mp (hordinary c hc)).2.2

theorem flush_nil (tokens : List Token) : flush [] tokens = tokens := rfl

theorem flush_reverse {word : List Char} (h : word ≠ []) (tokens : List Token) :
    flush word.reverse tokens = .plain word :: tokens := by
  rw [flush, if_neg (by simpa using h), List.reverse_reverse]

theorem scan_values (word : List Char) (vs : List Value) :
    scan .plain false word (vs.flatMap fun v => ' ' :: write v) =
      .ok (flush word (vs.map Value.token)) := by
  induction vs generalizing word with
  | nil => rfl
  | cons v vs ih =>
    rw [List.flatMap_cons, List.cons_append]
    generalize vs.flatMap (fun v => ' ' :: write v) = rest at ih ⊢
    have hplain {w : List Char} (hne : w ≠ []) (hspace : ' ' ∉ w) :
        scan .plain false [] (escape w ++ rest) = .ok (.plain w :: vs.map Value.token) := by
      rw [scan_escape_plain hspace, List.append_nil, ih, flush_reverse hne]
    have hvalue : scan .plain false [] (write v ++ rest) = .ok (v.token :: vs.map Value.token) := by
      rcases write_cases v with ⟨c, rfl⟩ | ⟨s, rfl⟩ | ⟨htoken, hne, hordinary⟩
      · have hchar := scan_escape_char c rest
        rw [ih] at hchar
        simp [write, scan, hchar, Except.map, flush_nil, Value.token]
      · rw [write, Value.token]
        split
        · have hquoted := scan_escape_quoted s.toList [] rest
          rw [ih] at hquoted
          simp [scan, hquoted, Except.map, flush_nil]
        · rename_i hquotes
          simp only [needsQuotes, Bool.or_eq_true, not_or] at hquotes
          exact hplain (by simpa using hquotes.1.1) (by simpa using hquotes.1.2)
      · have hword := hplain hne fun hspace => (ordinary_iff.mp (hordinary ' ' hspace)).2.1 rfl
        rw [escape_eq_self fun c hc => (ordinary_iff.mp (hordinary c hc)).1] at hword
        rw [htoken, hword]
    simp [scan, hvalue, Except.map]

theorem mapM_value_token (vs : List Value) :
    (vs.map Value.token).mapM Token.value = .ok (vs.map Value.echo) := by
  induction vs with
  | nil => rfl
  | cons v vs ih =>
    rw [List.map_cons, List.mapM_cons, value_token, ih]
    rfl

theorem legible_of_value {token : Token} {v : Value} (h : token.value = .ok v) :
    v.Legible ∧ ∀ c ∈ v.chars, c ∈ token.chars := by
  cases token with
  | plain word =>
    exact legible_of_readWord h
  | quoted text =>
    cases h
    refine ⟨trivial, ?_⟩
    rw [Value.chars, String.toList_ofList]
    exact fun c hc => hc
  | char c =>
    cases h
    exact ⟨trivial, fun c hc => hc⟩

end Source

end Cutscene
