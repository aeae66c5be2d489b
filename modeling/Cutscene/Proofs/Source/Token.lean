import Cutscene.Proofs.Except
import Cutscene.Proofs.Source.Comment
import Cutscene.Source.Line

namespace Cutscene.Source

def Token.chars : Token → List Char
  | .plain word => word
  | .quoted text => text
  | .char value => [value]

theorem all_flush {p : Char → Prop} {word : List Char} {tokens : List Token}
    (hword : ∀ c ∈ word, p c) (htokens : ∀ token ∈ tokens, ∀ c ∈ token.chars, p c) :
    ∀ token ∈ flush word tokens, ∀ c ∈ token.chars, p c := by
  rw [flush]
  split
  · exact htokens
  · intro token htoken c hc
    rcases List.mem_cons.mp htoken with rfl | htoken
    · exact hword c (List.mem_reverse.mp hc)
    · exact htokens token htoken c hc

theorem all_of_scan {p : Char → Prop} {context : Context} {escaped : Bool} {word cs : List Char}
    {tokens : List Token} (hword : ∀ c ∈ word, p c) (hcs : ∀ c ∈ cs, p c)
    (h : scan context escaped word cs = .ok tokens) :
    ∀ token ∈ tokens, ∀ c ∈ token.chars, p c := by
  induction cs generalizing context escaped word tokens with
  | nil =>
    cases context with
    | plain =>
      cases h
      exact all_flush hword nofun
    | quoted => cases h
    | char => cases h
  | cons c cs ih =>
    have hnil : ∀ d ∈ ([] : List Char), p d := nofun
    have hrest : ∀ d ∈ cs, p d := fun d hd => hcs d (List.mem_cons_of_mem c hd)
    have hlonger : ∀ d ∈ c :: word, p d := by
      intro d hd
      rcases List.mem_cons.mp hd with rfl | hd
      · exact hcs d List.mem_cons_self
      · exact hword d hd
    rw [scan.eq_def] at h
    simp only at h
    split at h
    · exact ih hword hrest h
    · cases context with
      | plain =>
        have hflush {context : Context}
            (h : (scan context false [] cs).map (flush word) = .ok tokens) :
            ∀ token ∈ tokens, ∀ c ∈ token.chars, p c := by
          obtain ⟨inner, hinner, rfl⟩ := map_eq_ok h
          exact all_flush hword (ih hnil hrest hinner)
        simp only at h
        split at h
        · exact hflush h
        · split at h
          · exact hflush h
          · split at h
            · exact hflush h
            · exact ih hlonger hrest h
      | quoted =>
        simp only at h
        split at h
        · obtain ⟨inner, hinner, rfl⟩ := map_eq_ok h
          intro token htoken
          rcases List.mem_cons.mp htoken with rfl | htoken
          · exact fun d hd => hword d (List.mem_reverse.mp hd)
          · exact ih hnil hrest hinner token htoken
        · exact ih hlonger hrest h
      | char =>
        simp only at h
        split at h
        · split at h
          · cases h
          · rename_i value hvalue
            obtain ⟨inner, hinner, rfl⟩ := map_eq_ok h
            intro token htoken
            rcases List.mem_cons.mp htoken with rfl | htoken
            · intro d hd
              obtain rfl := List.mem_singleton.mp hd
              exact hword d (List.mem_of_getLast? hvalue)
            · exact ih hnil hrest hinner token htoken
        · exact ih hlonger hrest h

theorem escape_cons (c : Char) (cs : List Char) :
    escape (c :: cs) = (if isSpecial c then ['\\', c] else [c]) ++ escape cs := rfl

theorem escape_eq_self {cs : List Char} (h : ∀ c ∈ cs, isSpecial c = false) : escape cs = cs := by
  induction cs with
  | nil => rfl
  | cons c cs ih =>
    have hc := h c List.mem_cons_self
    rw [escape_cons, ih fun d hd => h d (List.mem_cons_of_mem c hd), hc]
    rfl

theorem quiet_escape (cs : List Char) : Quiet (escape cs) := by
  apply Quiet.flatMap
  intro c _
  split
  · exact quiet_escaped c
  · rename_i hspecial
    apply quiet_singleton
    · rintro rfl
      exact hspecial rfl
    · rintro rfl
      exact hspecial rfl

theorem mem_escape {cs : List Char} {c : Char} (h : c ∈ escape cs) : c = '\\' ∨ c ∈ cs := by
  obtain ⟨d, hd, hc⟩ := List.mem_flatMap.mp h
  split at hc
  · simp only [List.mem_cons, List.not_mem_nil, or_false] at hc
    rcases hc with rfl | rfl
    · exact .inl rfl
    · exact .inr hd
  · rw [List.mem_singleton.mp hc]
    exact .inr hd

theorem scan_escape_plain {cs : List Char} (h : ' ' ∉ cs) (word rest : List Char) :
    scan .plain false word (escape cs ++ rest) = scan .plain false (cs.reverse ++ word) rest := by
  induction cs generalizing word with
  | nil => rfl
  | cons c cs ih =>
    simp only [List.mem_cons, not_or] at h
    rw [escape_cons, List.append_assoc]
    have hword := ih h.2 (c :: word)
    split
    · simp [scan, hword]
    · rename_i hspecial
      simp only [isSpecial, Bool.or_eq_true, beq_iff_eq, not_or] at hspecial
      have hspace : c ≠ ' ' := fun hc => h.1 hc.symm
      simp [scan, hspecial, hspace, hword]

theorem scan_escape_quoted (cs word rest : List Char) :
    scan .quoted false word (escape cs ++ '"' :: rest) =
      (scan .plain false [] rest).map (.quoted (word.reverse ++ cs) :: ·) := by
  induction cs generalizing word with
  | nil => simp [scan, escape]
  | cons c cs ih =>
    rw [escape_cons, List.append_assoc]
    have hword := ih (c :: word)
    split
    · simp [scan, hword]
    · rename_i hspecial
      simp only [isSpecial, Bool.or_eq_true, beq_iff_eq, not_or] at hspecial
      simp [scan, hspecial, hword]

theorem scan_escape_char (c : Char) (rest : List Char) :
    scan .char false [] (escape [c] ++ '\'' :: rest) =
      (scan .plain false [] rest).map (.char c :: ·) := by
  rw [escape_cons]
  split
  · simp [scan, escape]
  · rename_i hspecial
    simp only [isSpecial, Bool.or_eq_true, beq_iff_eq, not_or] at hspecial
    simp [scan, hspecial, escape]

end Cutscene.Source
