import Cutscene.Proofs.Source.Region

namespace Cutscene.Source

/-- The same error, with so many more lines before it. -/
def LineError.later (k : Nat) (e : LineError) : LineError := { e with line := e.line + k }

theorem readLinesFrom_later (number k : Nat) (lines : List (List Char)) :
    readLinesFrom (number + k) lines = (readLinesFrom number lines).mapError (·.later k) := by
  induction lines generalizing number with
  | nil => rfl
  | cons line lines ih =>
    rw [readLinesFrom, readLinesFrom, Nat.add_right_comm, ih]
    cases readLine line with
    | error cause => rfl
    | ok found =>
      cases found with
      | none => rfl
      | some i => cases readLinesFrom (number + 1) lines <;> rfl

theorem readLinesFrom_append (number : Nat) (lines lines' : List (List Char)) :
    readLinesFrom number (lines ++ lines') = (do
      let is ← readLinesFrom number lines
      let js ← readLinesFrom (number + lines.length) lines'
      .ok (is ++ js)) := by
  induction lines generalizing number with
  | nil =>
    change readLinesFrom number lines' = (do
      let js ← readLinesFrom number lines'
      .ok js)
    cases readLinesFrom number lines' <;> rfl
  | cons line lines ih =>
    rw [List.cons_append, readLinesFrom, readLinesFrom, List.length_cons, Nat.add_comm lines.length,
      ← Nat.add_assoc, ih]
    cases readLine line with
    | error cause => rfl
    | ok found =>
      cases found with
      | none => rfl
      | some i =>
        simp only
        cases readLinesFrom (number + 1) lines with
        | error e => rfl
        | ok is => cases readLinesFrom (number + 1 + lines.length) lines' <;> rfl

theorem splitOn_eq_splitLines (text : List Char) :
    text.splitOn '\n' = splitLines text ++ [[]] ∨
      splitLines text ≠ [] ∧ text.splitOn '\n' = splitLines text := by
  induction text with
  | nil => exact .inl rfl
  | cons c text ih =>
    rw [List.splitOn_cons_eq_if_modifyHead, splitLines]
    by_cases hc : c = '\n'
    · rw [if_pos (beq_iff_eq.mpr hc), if_pos hc]
      rcases ih with hlast | ⟨-, hsame⟩
      · exact .inl (congrArg _ hlast)
      · exact .inr ⟨List.cons_ne_nil _ _, congrArg _ hsame⟩
    · rw [if_neg (mt beq_iff_eq.mp hc), if_neg hc]
      cases hlines : splitLines text with
      | nil =>
        rcases ih with hlast | ⟨hne, -⟩
        · rw [hlast, hlines]
          exact .inr ⟨List.cons_ne_nil _ _, rfl⟩
        · exact absurd hlines hne
      | cons line lines =>
        rw [hlines] at ih
        rcases ih with hlast | ⟨-, hsame⟩
        · rw [hlast]
          exact .inl rfl
        · rw [hsame]
          exact .inr ⟨List.cons_ne_nil _ _, rfl⟩

theorem readText_eq (text : List Char) : readText text = readLines (text.splitOn '\n') := by
  rw [readText, readLines, readLines]
  rcases splitOn_eq_splitLines text with hlast | ⟨-, hsame⟩
  · rw [hlast, readLinesFrom_append]
    cases readLinesFrom 1 (splitLines text) with
    | error e => rfl
    | ok is => exact congrArg Except.ok (List.append_nil is).symm
  · rw [hsame]

theorem length_splitOn (text : List Char) : (text.splitOn '\n').length = text.count '\n' + 1 := by
  induction text with
  | nil => rfl
  | cons c text ih =>
    rw [List.splitOn_cons_eq_if_modifyHead]
    by_cases hc : c = '\n'
    · rw [if_pos (beq_iff_eq.mpr hc), hc, List.length_cons, ih, List.count_cons_self]
    · rw [if_neg (mt beq_iff_eq.mp hc), List.length_modifyHead, ih, List.count_cons_of_ne hc]

theorem readText_append (a b : List Char) :
    readText (a ++ '\n' :: b) = (do
      let is ← readText a
      let js ← (readText b).mapError (·.later (a.count '\n' + 1))
      .ok (is ++ js)) := by
  rw [readText_eq, readText_eq, readText_eq, List.splitOn_append_cons_self, readLines,
    readLinesFrom_append, length_splitOn, readLinesFrom_later]
  rfl

def instruction? (line : List Char) : Option Instruction :=
  match readLine line with
  | .ok found => found
  | .error _ => none

def Reads (line : List Char) : Prop := ∃ found, readLine line = .ok found

theorem readLinesFrom_of_reads {lines : List (List Char)} (h : ∀ line ∈ lines, Reads line)
    (number : Nat) : readLinesFrom number lines = .ok (lines.filterMap instruction?) := by
  induction lines generalizing number with
  | nil => rfl
  | cons line lines ih =>
    obtain ⟨hline, hlines⟩ := List.forall_mem_cons.mp h
    obtain ⟨found, hfound⟩ := hline
    rw [readLinesFrom, hfound, ih hlines, List.filterMap_cons, instruction?, hfound]
    cases found <;> rfl

theorem readLinesFrom_of_error {before after : List (List Char)} {line : List Char}
    {cause : SyntaxError} (hbefore : ∀ line ∈ before, Reads line)
    (hline : readLine line = .error cause) (number : Nat) :
    readLinesFrom number (before ++ line :: after) = .error ⟨number + before.length, cause⟩ := by
  rw [readLinesFrom_append, readLinesFrom_of_reads hbefore, readLinesFrom, hline]
  rfl

theorem reads_or_exists_first (lines : List (List Char)) :
    (∀ line ∈ lines, Reads line) ∨
      ∃ before line after cause, lines = before ++ line :: after ∧
        (∀ line ∈ before, Reads line) ∧ readLine line = .error cause := by
  induction lines with
  | nil => exact .inl nofun
  | cons line lines ih =>
    cases hline : readLine line with
    | error cause => exact .inr ⟨[], line, lines, cause, rfl, nofun, hline⟩
    | ok found =>
      rcases ih with hall | ⟨before, first, after, cause, rfl, hbefore, hfirst⟩
      · exact .inl (List.forall_mem_cons.mpr ⟨⟨found, hline⟩, hall⟩)
      · exact .inr ⟨line :: before, first, after, cause, rfl,
          List.forall_mem_cons.mpr ⟨⟨found, hline⟩, hbefore⟩, hfirst⟩

theorem readText_congr {text text' : List Char}
    (h : (text.splitOn '\n').map readLine = (text'.splitOn '\n').map readLine) :
    readText text = readText text' := by
  rw [readText_eq, readText_eq, readLines, readLines]
  generalize text.splitOn '\n' = lines at h
  generalize text'.splitOn '\n' = lines' at h
  generalize 1 = number
  induction lines generalizing lines' number with
  | nil =>
    rw [List.map_nil, eq_comm, List.map_eq_nil_iff] at h
    rw [h]
  | cons line lines ih =>
    cases lines' with
    | nil => cases h
    | cons line' lines' =>
      rw [List.map_cons, List.map_cons, List.cons.injEq] at h
      rw [readLinesFrom, readLinesFrom, h.1, ih lines' h.2]

theorem splitOn_filter {keep : Char → Bool} (hkeep : keep '\n' = true) (text : List Char) :
    (text.filter keep).splitOn '\n' = (text.splitOn '\n').map (·.filter keep) := by
  induction text with
  | nil => rfl
  | cons c text ih =>
    rw [List.splitOn_cons_eq_if_modifyHead, List.filter_cons]
    by_cases hc : c = '\n'
    · rw [if_pos (beq_iff_eq.mpr hc), hc, if_pos hkeep, List.splitOn_cons_eq_if_modifyHead,
        if_pos (beq_self_eq_true '\n'), ih]
      rfl
    · rw [if_neg (mt beq_iff_eq.mp hc)]
      cases hlines : text.splitOn '\n' with
      | nil => exact absurd hlines (List.splitOn_ne_nil _ _)
      | cons line lines =>
        rw [hlines] at ih
        split
        · rename_i hkept
          rw [List.splitOn_cons_eq_if_modifyHead, if_neg (mt beq_iff_eq.mp hc), ih]
          simp [List.modifyHead, hkept]
        · rename_i hdropped
          rw [ih]
          simp [List.modifyHead, hdropped]

theorem readLine_filter_return (line : List Char) :
    readLine (line.filter (· != '\r')) = readLine line := by
  apply readLine_of_strip_eq
  rw [kept, kept, List.filter_filter]
  congr 1
  apply List.filter_congr
  intro c _
  by_cases hc : c = '\r'
  · rw [hc]
    rfl
  · rw [bne_iff_ne.mpr hc, Bool.and_true]

theorem readText_filter_return (text : List Char) :
    readText (text.filter (· != '\r')) = readText text := by
  apply readText_congr
  rw [splitOn_filter rfl, List.map_map]
  exact List.map_congr_left fun line _ => readLine_filter_return line

theorem readText_replicate (k : Nat) : readText (List.replicate k '\n') = .ok [] := by
  induction k with
  | zero => rfl
  | succ k ih =>
    have hsplit := readText_append [] (List.replicate k '\n')
    rw [ih] at hsplit
    exact hsplit

theorem readText_append_replicate (text : List Char) (k : Nat) :
    readText (text ++ List.replicate k '\n') = readText text := by
  cases k with
  | zero => rw [List.replicate_zero, List.append_nil]
  | succ k =>
    rw [List.replicate_succ, readText_append, readText_replicate]
    cases readText text with
    | error e => rfl
    | ok is => exact congrArg Except.ok (List.append_nil is)

theorem readText_of_blank {line : List Char} (hline : '\n' ∉ line)
    (hnone : readLine line = .ok none) (a b : List Char) :
    readText (a ++ '\n' :: (line ++ '\n' :: b)) = readText (a ++ '\n' :: '\n' :: b) := by
  apply readText_congr
  rw [List.splitOn_append_cons_self a, List.splitOn_append_cons_self a,
    List.splitOn_append_cons_self_of_not_mem hline, List.splitOn_cons_eq_if_modifyHead,
    if_pos (beq_self_eq_true '\n'), List.map_append, List.map_append, List.map_cons, hnone]
  rfl

/-- The line with this number is the first one that cannot be read. -/
def FailsAt (text : List Char) (number : Nat) (cause : SyntaxError) : Prop :=
  ∃ before line after, text.splitOn '\n' = before ++ line :: after ∧
    number = before.length + 1 ∧ (∀ line ∈ before, Reads line) ∧ readLine line = .error cause

theorem readText_of_reads {text : List Char} (h : ∀ line ∈ text.splitOn '\n', Reads line) :
    readText text = .ok ((text.splitOn '\n').filterMap instruction?) := by
  rw [readText_eq, readLines, readLinesFrom_of_reads h]

theorem FailsAt.readText {text : List Char} {number : Nat} {cause : SyntaxError}
    (h : FailsAt text number cause) : readText text = .error ⟨number, cause⟩ := by
  obtain ⟨before, line, after, hsplit, rfl, hbefore, hline⟩ := h
  rw [readText_eq, hsplit, readLines, readLinesFrom_of_error hbefore hline, Nat.add_comm 1]

theorem reads_or_failsAt (text : List Char) :
    (∀ line ∈ text.splitOn '\n', Reads line) ∨ ∃ number cause, FailsAt text number cause := by
  rcases reads_or_exists_first (text.splitOn '\n') with
    hall | ⟨before, line, after, cause, hsplit, hbefore, hline⟩
  · exact .inl hall
  · exact .inr ⟨_, cause, before, line, after, hsplit, rfl, hbefore, hline⟩

theorem readText_eq_error_iff {text : List Char} {number : Nat} {cause : SyntaxError} :
    readText text = .error ⟨number, cause⟩ ↔ FailsAt text number cause := by
  refine ⟨fun h => ?_, FailsAt.readText⟩
  rcases reads_or_failsAt text with hall | ⟨number', cause', hfails⟩
  · rw [readText_of_reads hall] at h
    cases h
  · rw [hfails.readText] at h
    cases h
    exact hfails

theorem readText_eq_ok_iff {text : List Char} {is : List Instruction} :
    readText text = .ok is ↔
      (∀ line ∈ text.splitOn '\n', Reads line) ∧
        is = (text.splitOn '\n').filterMap instruction? := by
  constructor
  · intro h
    rcases reads_or_failsAt text with hall | ⟨number, cause, hfails⟩
    · rw [readText_of_reads hall] at h
      exact ⟨hall, (Except.ok.inj h).symm⟩
    · rw [hfails.readText] at h
      cases h
  · rintro ⟨hall, rfl⟩
    exact readText_of_reads hall

/-- A text is read part by part and line by line. An error of the second part is reported with the
lines of the first one counted, whatever is on them; the script of the whole is that of one part
after that of the other. Of a line that is in error no other one is any the worse, and carriage
returns, line feeds at the end and lines on which nothing is left change nothing else. -/
theorem lines_numbered :
    (∀ a b : List Char,
      (∀ e, readText a = .error e → readText (a ++ '\n' :: b) = .error e) ∧
      (∀ is e, readText a = .ok is → readText b = .error e →
        readText (a ++ '\n' :: b) = .error ⟨e.line + (a.count '\n' + 1), e.cause⟩) ∧
      (∀ is js, readText a = .ok is → readText b = .ok js →
        readText (a ++ '\n' :: b) = .ok (is ++ js))) ∧
    (∀ text number cause,
      readText text = .error ⟨number, cause⟩ ↔ FailsAt text number cause) ∧
    (∀ text is, readText text = .ok is ↔ (∀ line ∈ text.splitOn '\n', Reads line) ∧
      is = (text.splitOn '\n').filterMap instruction?) ∧
    (∀ text : List Char, readText (text.filter (· != '\r')) = readText text) ∧
    (∀ (text : List Char) (k : Nat), readText (text ++ List.replicate k '\n') = readText text) ∧
    (∀ a line b : List Char, '\n' ∉ line → readLine line = .ok none →
      readText (a ++ '\n' :: (line ++ '\n' :: b)) = readText (a ++ '\n' :: '\n' :: b)) := by
  refine ⟨fun a b => ⟨fun e ha => ?_, fun is e ha hb => ?_, fun is js ha hb => ?_⟩,
    fun _ _ _ => readText_eq_error_iff, fun _ _ => readText_eq_ok_iff, readText_filter_return,
    readText_append_replicate, fun a _ b hline hnone => readText_of_blank hline hnone a b⟩
  · rw [readText_append, ha]
    rfl
  · rw [readText_append, ha, hb]
    rfl
  · rw [readText_append, ha, hb]
    rfl

/-- The comment in the first part is not closed, and the literal in the second one does not end. -/
theorem lines_numbered_unended :
    let a := ['#', '"', '\r', '\n']
    let b := ['a', '\n', 'b', ' ', '"']
    readText a = .ok [] ∧ readText b = .error ⟨2, .unterminatedString⟩ ∧
      readText (a ++ '\n' :: b) = .error ⟨4, .unterminatedString⟩ := by
  intro a b
  have ha : readText a = .ok [] := by rfl
  have hb : readText b = .error ⟨2, .unterminatedString⟩ := by rfl
  obtain ⟨hjoin, -⟩ := lines_numbered
  obtain ⟨-, hsecond, -⟩ := hjoin a b
  exact ⟨ha, hb, hsecond [] _ ha hb⟩

end Cutscene.Source
