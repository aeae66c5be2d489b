import Cutscene.Proofs.Source.Text
import Cutscene.Proofs.Text.Utf8
import Cutscene.Script

namespace Cutscene

namespace Script

theorem mark_eq : mark = Utf8.encode ['D', 'C', 'U', 'T'] := rfl

theorem byteOrderMark_eq : byteOrderMark = Utf8.encode ['\uFEFF'] := rfl

theorem formOf_encode {cs : List Char} (h : cs.head? ≠ some 'D') :
    formOf (Utf8.encode cs) = .text := by
  rw [formOf, if_neg]
  intro hmark
  rw [List.isPrefixOf_iff_prefix, mark_eq] at hmark
  obtain ⟨rest, rfl⟩ := Utf8.prefix_of_encode_prefix hmark
  exact h rfl

theorem readText_encode_mark (cs : List Char) :
    readText (Utf8.encode ('\uFEFF' :: cs)) = (Source.readText cs).mapError .source := by
  have hsplit : Utf8.encode ('\uFEFF' :: cs) = byteOrderMark ++ Utf8.encode cs := rfl
  have hmark : dropStart byteOrderMark (byteOrderMark ++ Utf8.encode cs) =
      some (Utf8.encode cs) := by
    rw [dropStart, if_pos (List.isPrefixOf_iff_prefix.mpr (List.prefix_append _ _)),
      List.drop_left]
  rw [readText, hsplit, hmark, Option.getD_some, Utf8.decode_encode]

theorem readText_encode {cs : List Char} (h : cs.head? ≠ some '\uFEFF') :
    readText (Utf8.encode cs) = (Source.readText cs).mapError .source := by
  have hmark : dropStart byteOrderMark (Utf8.encode cs) = none := by
    rw [dropStart, if_neg]
    intro hmark
    rw [List.isPrefixOf_iff_prefix, byteOrderMark_eq] at hmark
    obtain ⟨rest, rfl⟩ := Utf8.prefix_of_encode_prefix hmark
    exact h rfl
  rw [readText, hmark, Option.getD_none, Utf8.decode_encode]

def text (is : List Instruction) : List UInt8 := Utf8.encode (Source.writeText is)

theorem formOf_text (is : List Instruction) : formOf (text is) = .text :=
  formOf_encode (Source.head?_writeText_ne is)

theorem ofBytes_text_eq_ok_iff {is is' : List Instruction} :
    ofBytes (text is) = .ok ⟨.text, is'⟩ ↔ readText (text is) = .ok is' := by
  rw [ofBytes, formOf_text]
  simp only
  cases readText (text is) <;> simp [Except.map]

/-- The script has no first name, or one that does not begin with a byte order mark. -/
def Unmarked (is : List Instruction) : Prop :=
  ∀ i ∈ is.head?, i.command.name.toList.head? ≠ some '\uFEFF'

open Source

theorem head?_writeText_of_unmarked {is : List Instruction} (h : ∀ i ∈ is, Writable i)
    (hunmarked : Unmarked is) : (writeText is).head? ≠ some '\uFEFF' := by
  cases is with
  | nil => exact nofun
  | cons i is =>
    have hi := h i List.mem_cons_self
    have hne : writeLine i ≠ [] := List.append_ne_nil_of_left_ne_nil hi.isName.ne_nil _
    rw [writeText_cons, List.head?_append_of_ne_nil _ hne, ne_eq, head?_writeLine hi (by decide)]
    exact hunmarked i rfl

theorem readText_text_of_unmarked {is : List Instruction} (h : ∀ i ∈ is, Survives i)
    (hunmarked : Unmarked is) : readText (text is) = .ok is := by
  have hwritable : ∀ i ∈ is, Writable i := fun i hi => (survives_iff.mp (h i hi)).1
  have hsame : ∀ i ∈ is, reread i = id i := fun i hi =>
    reread_eq_self ((command_reread_iff (hwritable i hi)).mpr (survives_iff.mp (h i hi)).2)
  rw [text, readText_encode (head?_writeText_of_unmarked hwritable hunmarked),
    readText_writeText hwritable, List.map_congr_left hsame, List.map_id]
  rfl

theorem readText_text_of_marked {i : Instruction} {is : List Instruction} {name : String}
    {word : List Char} (hi : Writable i) (his : ∀ j ∈ is, Writable j)
    (hcommand : i.command = .custom name) (hname : name.toList = '\uFEFF' :: word) :
    readText (text (i :: is)) =
      (readLines ((word ++ spaced i.values) :: is.map writeLine)).mapError .source := by
  have hline : writeLine i = '\uFEFF' :: (word ++ spaced i.values) := by
    rw [writeLine, hcommand, Command.name,
      Text.lowerFirst_of_lower_eq_self (hi.name name hcommand).2, hname]
    rfl
  have hnewline := hi.newline_not_mem
  rw [hline, List.mem_cons, not_or] at hnewline
  rw [text, writeText_cons, hline, List.cons_append, readText_encode_mark, Source.readText,
    splitLines_append hnewline.2, splitLines_writeText fun j hj => (his j hj).newline_not_mem]

theorem unmarked_of_readText_text {is is' : List Instruction} (h : ∀ i ∈ is, Writable i)
    (hread : readText (text is) = .ok is')
    (hsame : Instruction.agree Instruction.same is' is = true) : Unmarked is := by
  cases is with
  | nil => exact nofun
  | cons i is =>
    intro first hfirst hmark
    obtain rfl := Option.some.inj hfirst
    obtain ⟨hi, his⟩ := List.forall_mem_cons.mp h
    cases hcommand : i.command with
    | builtin o =>
      rw [hcommand, Command.name] at hmark
      exact head?_name_ne o (by decide) hmark
    | custom name =>
      rw [hcommand, Command.name] at hmark
      obtain ⟨word, hname⟩ := List.head?_eq_some_iff.mp hmark
      rw [readText_text_of_marked hi his hcommand hname, readLines, readLinesFrom] at hread
      -- The other lines are read as before, so the first one would have to be.
      cases hfirst : readLine (word ++ spaced i.values) with
      | error cause =>
        rw [hfirst] at hread
        cases hread
      | ok read =>
        rw [hfirst] at hread
        simp only [readLinesFrom_writeLine his] at hread
        cases read with
        | none =>
          cases hread
          have hlength := Instruction.length_eq_of_agree hsame
          rw [List.length_map, List.length_cons] at hlength
          omega
        | some j =>
          cases hread
          rw [Instruction.agree, Bool.and_eq_true] at hsame
          exact not_same_of_beheaded hi hcommand hname rfl hfirst hsame.1

/-- A text script is never taken for a binary one. If each of its instructions comes back from its
line, then so does the script from its file, unless the file begins like one with a byte order mark;
and then not even an equal script comes back. -/
theorem text_roundTrip (is : List Instruction) :
    ∃ bs, toBytes ⟨.text, is⟩ = .ok bs ∧ formOf bs = .text ∧
      ((∀ i ∈ is, readLine (writeLine i) = .ok (some i)) →
        (ofBytes bs = .ok ⟨.text, is⟩ ↔ Unmarked is) ∧
          ((∃ is', ofBytes bs = .ok ⟨.text, is'⟩ ∧
            Instruction.agree Instruction.same is' is = true) ↔ Unmarked is)) := by
  refine ⟨text is, rfl, formOf_text is, fun hlines => ?_⟩
  have hwritable : ∀ i ∈ is, Writable i := fun i hi => writable_of_readLine (hlines i hi)
  have hself : Instruction.agree Instruction.same is is = true :=
    agree_self fun i hi => same_self (hwritable i hi).legible
  have hsurvives : ∀ i ∈ is, Survives i := fun i hi =>
    survives_of_same (hlines i hi) (same_self (hwritable i hi).legible)
  simp only [ofBytes_text_eq_ok_iff]
  have hback (hunmarked : Unmarked is) : readText (text is) = .ok is :=
    readText_text_of_unmarked hsurvives hunmarked
  refine ⟨⟨fun hread => unmarked_of_readText_text hwritable hread hself, hback⟩, ?_, ?_⟩
  · rintro ⟨is', hread, hsame⟩
    exact unmarked_of_readText_text hwritable hread hsame
  · intro hunmarked
    exact ⟨is, hback hunmarked, hself⟩

def markedCall : Instruction := { command := .custom "\uFEFFdoor" }

theorem survives_markedCall : Survives markedCall := by
  refine ⟨?_, nofun, nofun, nofun, nofun, nofun, nofun⟩
  intro name hname
  cases hname
  have hchars : ("\uFEFFdoor" : String).toList = ['\uFEFF', 'd', 'o', 'o', 'r'] := by decide +kernel
  refine ⟨by decide, ?_, ?_, by decide +kernel, ?_⟩
  · rw [hchars]
    simp
  · rw [hchars]
    decide
  · apply Opcode.ofName?_eq_none_iff.mp
    rw [Option.eq_none_iff_forall_ne_some]
    intro o hfind
    have hascii := Opcode.toNat_lt_of_ofName? hfind
    rw [hchars] at hascii
    exact absurd (hascii '\uFEFF' List.mem_cons_self) (by decide)

theorem text_roundTrip_markedCall :
    readLine (writeLine markedCall) = .ok (some markedCall) ∧
      ∃ bs, toBytes ⟨.text, [markedCall]⟩ = .ok bs ∧ formOf bs = .text ∧
        ofBytes bs ≠ .ok ⟨.text, [markedCall]⟩ := by
  have hread := readLine_writeLine_of_survives survives_markedCall
  obtain ⟨bs, hbs, hform, hback⟩ := text_roundTrip [markedCall]
  refine ⟨hread, bs, hbs, hform, fun hsame => ?_⟩
  have hlines : ∀ i ∈ [markedCall], readLine (writeLine i) = .ok (some i) := by
    intro i hi
    rw [List.mem_singleton.mp hi]
    exact hread
  have hmark : markedCall.command.name.toList.head? = some '\uFEFF' := by decide +kernel
  exact (hback hlines).1.mp hsame markedCall rfl hmark

end Script

end Cutscene
