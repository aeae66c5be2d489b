import Cutscene.Proofs.Text.Lower
import Cutscene.Source.Comment

namespace Cutscene.Source

theorem mem_of_mem_stripFrom {inside escaped : Bool} {cs : List Char} {c : Char}
    (h : c ∈ stripFrom inside escaped cs) : c ∈ cs := by
  induction cs generalizing inside escaped with
  | nil => cases h
  | cons d cs ih =>
    have hrest {inside escaped : Bool} (h : c ∈ stripFrom inside escaped cs) : c ∈ d :: cs :=
      List.mem_cons_of_mem d (ih h)
    have hkept {escaped : Bool} (h : c ∈ d :: stripFrom inside escaped cs) : c ∈ d :: cs := by
      rcases List.mem_cons.mp h with rfl | h
      · exact List.mem_cons_self
      · exact hrest h
    rw [stripFrom] at h
    split at h
    · split at h
      · exact hrest h
      · exact hkept h
    · split at h
      · split at h
        · exact hrest h
        · exact hkept h
      · split at h
        · exact hrest h
        · split at h
          · exact hrest h
          · exact hkept h

/-- A text from which nothing is removed, as it opens no comment. -/
inductive Bare : Bool → List Char → Prop
  | nil {escaped : Bool} : Bare escaped []
  | escaped {c : Char} {cs : List Char} (h : Bare false cs) : Bare true (c :: cs)
  | backslash {cs : List Char} (h : Bare true cs) : Bare false ('\\' :: cs)
  | cons {c : Char} {cs : List Char} (hbackslash : c ≠ '\\') (hmark : c ≠ '#')
      (h : Bare false cs) : Bare false (c :: cs)

theorem Bare.stripFrom_eq {escaped : Bool} {cs : List Char} (h : Bare escaped cs) :
    stripFrom false escaped cs = cs := by
  induction h with
  | nil => rfl
  | escaped _ ih => simp [stripFrom, ih]
  | backslash _ ih => simp [stripFrom, ih]
  | cons hbackslash hmark _ ih => simp [stripFrom, hbackslash, hmark, ih]

/-- What is left once comments are gone has no more of them. -/
theorem bare_stripFrom (inside escaped : Bool) (cs : List Char) :
    Bare (!inside && escaped) (stripFrom inside escaped cs) := by
  induction cs generalizing inside escaped with
  | nil => exact .nil
  | cons c cs ih =>
    rw [stripFrom]
    split
    · rename_i hescaped
      subst hescaped
      cases inside with
      | false => exact .escaped (ih false false)
      | true => exact ih true false
    · rename_i hescaped
      rw [Bool.not_eq_true] at hescaped
      subst hescaped
      split
      · rename_i hbackslash
        subst hbackslash
        cases inside with
        | false => exact .backslash (ih false true)
        | true => exact ih true true
      · rename_i hbackslash
        split
        · cases inside with
          | false => exact ih true false
          | true => exact ih false false
        · rename_i hmark
          cases inside with
          | false => exact .cons hbackslash hmark (ih false false)
          | true => exact ih true false

theorem bare_of_stripFrom_eq {escaped : Bool} {cs : List Char}
    (h : stripFrom false escaped cs = cs) : Bare escaped cs := by
  rw [← h]
  exact bare_stripFrom false escaped cs

theorem Bare.of_append {escaped : Bool} {cs ds : List Char} (h : Bare escaped (cs ++ ds)) :
    Bare escaped cs := by
  induction cs generalizing escaped with
  | nil => exact .nil
  | cons c cs ih =>
    cases h with
    | escaped h => exact .escaped (ih h)
    | backslash h => exact .backslash (ih h)
    | cons hbackslash hmark h => exact .cons hbackslash hmark (ih h)

theorem Bare.dropWhile_space {cs : List Char} (h : Bare false cs) :
    Bare false (cs.dropWhile (· == ' ')) := by
  induction cs with
  | nil => exact h
  | cons c cs ih =>
    rw [List.dropWhile_cons]
    split
    · rename_i hspace
      obtain rfl := beq_iff_eq.mp hspace
      cases h with
      | cons _ _ h => exact ih h
    · exact h

theorem Bare.append_plain {ds : List Char} (h : ∀ c ∈ ds, c ≠ '\\' ∧ c ≠ '#') {cs : List Char}
    (hbare : Bare false cs) : Bare false (ds ++ cs) := by
  induction ds with
  | nil => exact hbare
  | cons d ds ih =>
    obtain ⟨hbackslash, hmark⟩ := h d List.mem_cons_self
    exact .cons hbackslash hmark (ih fun c hc => h c (List.mem_cons_of_mem d hc))

theorem Bare.lowerAfter {escaped : Bool} {before cs : List Char} (h : Bare escaped cs) :
    Bare escaped (Text.lowerAfter before cs) := by
  have hplain {c : Char} (hbackslash : c ≠ '\\') (hmark : c ≠ '#') (d : Char)
      (h : d = c ∨ d.isLower = true ∨ 0x80 ≤ d.toNat) : d ≠ '\\' ∧ d ≠ '#' := by
    rcases h with rfl | hlower | hlarge
    · exact ⟨hbackslash, hmark⟩
    · exact ⟨by rintro rfl; exact absurd hlower (by decide),
        by rintro rfl; exact absurd hlower (by decide)⟩
    · exact ⟨by rintro rfl; exact absurd hlarge (by decide),
        by rintro rfl; exact absurd hlarge (by decide)⟩
  induction h generalizing before with
  | nil => exact .nil
  | @escaped c cs _ ih =>
    by_cases hbackslash : c = '\\'
    · subst hbackslash
      exact .escaped ih
    · by_cases hmark : c = '#'
      · subst hmark
        exact .escaped ih
      · obtain ⟨lowered, hlowered, hne, hmem⟩ := Text.lowerAfter_cons before cs c
        rw [hlowered]
        cases lowered with
        | nil => exact absurd rfl hne
        | cons d ds =>
          refine .escaped (append_plain ?_ ih)
          exact fun e he => hplain hbackslash hmark e (hmem e (List.mem_cons_of_mem d he))
  | backslash _ ih => exact .backslash ih
  | @cons c cs hbackslash hmark _ ih =>
    obtain ⟨lowered, hlowered, -, hmem⟩ := Text.lowerAfter_cons before cs c
    rw [hlowered]
    exact append_plain (fun e he => hplain hbackslash hmark e (hmem e he)) ih

/-- Whatever stands before it, a quiet text is kept or removed as a whole, and neither opens a
comment nor closes one. -/
def Quiet (cs : List Char) : Prop :=
  ∀ inside rest, stripFrom inside false (cs ++ rest) =
    (if inside then [] else cs) ++ stripFrom inside false rest

theorem quiet_nil : Quiet [] := by
  intro inside rest
  cases inside <;> rfl

theorem Quiet.append {cs ds : List Char} (h : Quiet cs) (h' : Quiet ds) : Quiet (cs ++ ds) := by
  intro inside rest
  rw [List.append_assoc, h, h', ← List.append_assoc]
  cases inside <;> rfl

theorem Quiet.flatMap {α : Type} {f : α → List Char} {as : List α} (h : ∀ a ∈ as, Quiet (f a)) :
    Quiet (as.flatMap f) := by
  induction as with
  | nil => exact quiet_nil
  | cons a as ih =>
    rw [List.flatMap_cons]
    exact (h a List.mem_cons_self).append (ih fun b hb => h b (List.mem_cons_of_mem a hb))

theorem quiet_singleton {c : Char} (hbackslash : c ≠ '\\') (hmark : c ≠ '#') : Quiet [c] := by
  intro inside rest
  cases inside <;> simp [stripFrom, hbackslash, hmark]

theorem quiet_escaped (c : Char) : Quiet ['\\', c] := by
  intro inside rest
  cases inside <;> simp [stripFrom]

theorem Quiet.cons {c : Char} {cs : List Char} (hbackslash : c ≠ '\\') (hmark : c ≠ '#')
    (h : Quiet cs) : Quiet (c :: cs) := (quiet_singleton hbackslash hmark).append h

theorem Quiet.stripFrom {cs : List Char} (h : Quiet cs) (inside : Bool) :
    stripFrom inside false cs = if inside then [] else cs := by
  have hnil := h inside []
  simpa [Source.stripFrom] using hnil

theorem Bare.append_space {escaped : Bool} {before cs : List Char} (h : Bare escaped before)
    (hquiet : Quiet cs) : stripFrom false escaped (before ++ ' ' :: cs) = before ++ ' ' :: cs := by
  induction h with
  | nil =>
    have hstrip := hquiet.stripFrom false
    rename_i escaped
    cases escaped <;> simp_all [Source.stripFrom]
  | escaped _ ih => simp [Source.stripFrom, ih]
  | backslash _ ih => simp [Source.stripFrom, ih]
  | cons hbackslash hmark _ ih => simp [Source.stripFrom, hbackslash, hmark, ih]

end Cutscene.Source
