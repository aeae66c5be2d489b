import Cutscene.Proofs.Source.RoundTrip

namespace Cutscene.Source

theorem mem_of_mem_splitLines {text line : List Char} {c : Char} (hline : line ∈ splitLines text)
    (hc : c ∈ line) : c ∈ text := by
  induction text generalizing line with
  | nil => cases hline
  | cons d text ih =>
    rw [splitLines] at hline
    split at hline
    · rcases List.mem_cons.mp hline with rfl | hline
      · cases hc
      · exact List.mem_cons_of_mem d (ih hline hc)
    · split at hline
      next hnil =>
        rw [List.mem_singleton.mp hline] at hc
        rw [List.mem_singleton.mp hc]
        exact List.mem_cons_self
      next first lines hsplit =>
        rcases List.mem_cons.mp hline with rfl | hline
        · rcases List.mem_cons.mp hc with rfl | hc
          · exact List.mem_cons_self
          · exact List.mem_cons_of_mem d (ih (hsplit ▸ List.mem_cons_self) hc)
        · exact List.mem_cons_of_mem d (ih (hsplit ▸ List.mem_cons_of_mem first hline) hc)

theorem mem_of_readLinesFrom {number : Nat} {lines : List (List Char)} {script : List Instruction}
    (h : readLinesFrom number lines = .ok script) :
    ∀ i ∈ script, ∃ line ∈ lines, readLine line = .ok (some i) := by
  induction lines generalizing number script with
  | nil =>
    cases h
    exact nofun
  | cons line lines ih =>
    rw [readLinesFrom] at h
    split at h
    next => cases h
    next =>
      intro i hi
      obtain ⟨other, hother, hread⟩ := ih h i hi
      exact ⟨other, List.mem_cons_of_mem line hother, hread⟩
    next first hfirst =>
      obtain ⟨rest, hrest, rfl⟩ := map_eq_ok h
      intro i hi
      rcases List.mem_cons.mp hi with rfl | hi
      · exact ⟨line, List.mem_cons_self, hfirst⟩
      · obtain ⟨other, hother, hread⟩ := ih hrest i hi
        exact ⟨other, List.mem_cons_of_mem line hother, hread⟩

theorem writable_of_readText {text : List Char} {script : List Instruction}
    (h : readText text = .ok script) : ∀ i ∈ script, Writable i := by
  intro i hi
  obtain ⟨line, -, hread⟩ := mem_of_readLinesFrom h i hi
  exact writable_of_readLine hread

theorem readLinesFrom_writeLine {script : List Instruction} (h : ∀ i ∈ script, Writable i)
    (number : Nat) : readLinesFrom number (script.map writeLine) = .ok (script.map reread) := by
  induction script generalizing number with
  | nil => rfl
  | cons i script ih =>
    rw [List.map_cons, readLinesFrom, readLine_writeLine_of_writable (h i List.mem_cons_self)]
    simp only [ih fun j hj => h j (List.mem_cons_of_mem i hj)]
    rfl

/-- No custom command has a name that the catalog has in any case of its letters. -/
def Unclaimed (script : List Instruction) : Prop :=
  ∀ i ∈ script, ∀ name, i.command = .custom name →
    ∀ o : Opcode, Text.foldAscii o.name ≠ Text.foldAscii name

theorem unclaimed_iff {script : List Instruction} (h : ∀ i ∈ script, Writable i) :
    Unclaimed script ↔ ∀ i ∈ script, (reread i).command = i.command := by
  simp only [Unclaimed, ← Opcode.ofName?_eq_none_iff]
  constructor
  · intro hnone i hi
    exact (command_reread_iff (h i hi)).mpr (hnone i hi)
  · intro hcommand i hi
    exact (command_reread_iff (h i hi)).mp (hcommand i hi)

theorem map_reread_of_unclaimed {script : List Instruction} (h : ∀ i ∈ script, Writable i)
    (hunclaimed : Unclaimed script) : script.map reread = script := by
  have hcommand := (unclaimed_iff h).mp hunclaimed
  have hsame : ∀ i ∈ script, reread i = id i := fun i hi => reread_eq_self (hcommand i hi)
  rw [List.map_congr_left hsame, List.map_id]

theorem same_of_agree_map {f : Instruction → Instruction} {script : List Instruction}
    (h : Instruction.agree Instruction.same (script.map f) script = true) :
    ∀ i ∈ script, (f i).same i = true := by
  induction script with
  | nil => exact nofun
  | cons i script ih =>
    rw [List.map_cons, Instruction.agree, Bool.and_eq_true] at h
    intro j hj
    rcases List.mem_cons.mp hj with rfl | hj
    · exact h.1
    · exact ih h.2 j hj

theorem unclaimed_of_not_mem {text : List Char} {script : List Instruction}
    (h : readText text = .ok script) (hkelvin : '\u212A' ∉ text) : Unclaimed script := by
  intro i hi name hcommand
  obtain ⟨line, hline, hread⟩ := mem_of_readLinesFrom h i hi
  obtain ⟨word, -, hword, hname, -⟩ := exists_isName_of_readLine hread
  rw [hname, Command.ofName] at hcommand
  split at hcommand
  next => cases hcommand
  next hnone =>
    -- The word is not in the catalog, and lowering it is what might bring it there.
    cases hcommand
    apply Opcode.ofName?_eq_none_iff.mp
    apply Opcode.ofName?_lower ?_ hnone
    rw [String.toList_ofList]
    intro hmem
    exact hkelvin (mem_of_mem_splitLines hline (hword hmem))

/-- A script that was read from a text is read again from its own lines, and only its custom names
can be mistaken. The catalog is searched for the word of the text and not for the lowered name that
is kept, so it may know the second and not the first, which takes a Kelvin sign. -/
theorem readLines_writeLine {text : List Char} {script : List Instruction}
    (h : readText text = .ok script) :
    readLines (script.map writeLine) = .ok (script.map reread) ∧
      (readLines (script.map writeLine) = .ok script ↔ Unclaimed script) ∧
        ((∃ script', readLines (script.map writeLine) = .ok script' ∧
          Instruction.agree Instruction.same script' script = true) ↔ Unclaimed script) ∧
          ('\u212A' ∉ text → Unclaimed script) := by
  have hwritable := writable_of_readText h
  have hread : readLines (script.map writeLine) = .ok (script.map reread) :=
    readLinesFrom_writeLine hwritable 1
  have hself : Instruction.agree Instruction.same script script = true :=
    agree_self fun i hi => same_self (hwritable i hi).legible
  have hclaimed {script' : List Instruction}
      (hread' : readLines (script.map writeLine) = .ok script')
      (hsame : Instruction.agree Instruction.same script' script = true) : Unclaimed script := by
    rw [hread] at hread'
    obtain rfl := Except.ok.inj hread'
    apply (unclaimed_iff hwritable).mpr
    intro i hi
    exact (eq_of_same (same_of_agree_map hsame i hi)).1
  have hback (hunclaimed : Unclaimed script) : readLines (script.map writeLine) = .ok script := by
    rw [hread, map_reread_of_unclaimed hwritable hunclaimed]
  refine ⟨hread, ⟨fun hread' => hclaimed hread' hself, hback⟩, ⟨?_, ?_⟩, unclaimed_of_not_mem h⟩
  · rintro ⟨script', hread', hsame⟩
    exact hclaimed hread' hsame
  · intro hunclaimed
    exact ⟨script, hback hunclaimed, hself⟩

def kelvinWord : List Char := ['b', 'l', 'o', 'c', '\u212A', 'i', 'n', 'p', 'u', 't']

def kelvinCall : Instruction := { command := .custom "blockinput", strings := ["A"] }

theorem ofName_kelvinWord :
    Command.ofName (String.ofList kelvinWord) = .custom "blockinput" := by
  have hlower : Text.lowerAfter [] kelvinWord =
      ['b', 'l', 'o', 'c', 'k', 'i', 'n', 'p', 'u', 't'] := by decide +kernel
  rw [Command.ofName]
  cases hfind : Opcode.ofName? (String.ofList kelvinWord) with
  | none =>
    simp only [Text.lower, String.toList_ofList, hlower]
  | some o =>
    have hascii := Opcode.toNat_lt_of_ofName? hfind
    rw [String.toList_ofList] at hascii
    exact absurd (hascii '\u212A' (by decide)) (by decide)

theorem readText_kelvin : readText (kelvinWord ++ [' ', 'A']) = .ok [kelvinCall] := by
  have hname : IsName kelvinWord := by
    apply isName_of_ordinary
    · exact List.cons_ne_nil _ _
    · apply List.all_eq_true.mp
      decide
  have hclean : ∀ v ∈ [Value.string "A"], ∀ c ∈ v.chars, isIgnored c = false := by
    intro v hv c hc
    rw [List.mem_singleton.mp hv] at hc
    rw [List.mem_singleton.mp hc]
    rfl
  have hwrite : [Value.string "A"].flatMap (fun v => ' ' :: write v) = [' ', 'A'] := by decide
  have hread := readLine_of_isName hname hclean
  rw [hwrite, ofName_kelvinWord] at hread
  have hlines : splitLines (kelvinWord ++ [' ', 'A']) = [kelvinWord ++ [' ', 'A']] := by decide
  rw [readText, hlines, readLines, readLinesFrom, hread]
  rfl

/-- A call of the host has turned into one that the language knows. -/
theorem readLines_writeLine_kelvin :
    readText (kelvinWord ++ [' ', 'A']) = .ok [kelvinCall] ∧
      readLines ([kelvinCall].map writeLine) =
        .ok [{ kelvinCall with command := .builtin .blockInput }] ∧
        readLines ([kelvinCall].map writeLine) ≠ .ok [kelvinCall] := by
  obtain ⟨hread, hiff, -⟩ := readLines_writeLine readText_kelvin
  have hfolded : Text.foldAscii Opcode.blockInput.name = Text.foldAscii "blockinput" := by
    decide +kernel
  refine ⟨readText_kelvin, ?_, ?_⟩
  · have hlower : Text.lowerFirst "blockinput" = "blockinput" := by decide +kernel
    rw [hread, List.map_singleton, reread, kelvinCall, Command.name, hlower, Command.ofName,
      Opcode.ofName?_eq_some_iff.mpr hfolded]
  · intro hsame
    exact hiff.mp hsame kelvinCall (List.mem_singleton_self _) "blockinput" rfl .blockInput hfolded

end Cutscene.Source
