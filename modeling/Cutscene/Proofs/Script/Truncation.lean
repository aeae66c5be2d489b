import Cutscene.Proofs.Record.Delimited
import Cutscene.Proofs.Script.Binary

namespace Cutscene.Script

open Record

/-- How many of the records, written back to back, end within the first `length` bytes. -/
def wholeRecords (is : List Instruction) (length : Nat) : Nat :=
  (List.range is.length).countP fun index =>
    ((is.take (index + 1)).flatMap writeInstruction).length ≤ length

theorem wholeRecords_cons_of_lt {i : Instruction} {is : List Instruction} {length : Nat}
    (h : length < (writeInstruction i).length) : wholeRecords (i :: is) length = 0 := by
  rw [wholeRecords, List.countP_eq_zero]
  intro index _
  rw [decide_eq_true_eq, List.take_succ_cons, List.flatMap_cons, List.length_append]
  omega

theorem wholeRecords_cons_of_le {i : Instruction} {is : List Instruction} (length : Nat) :
    wholeRecords (i :: is) ((writeInstruction i).length + length) =
      wholeRecords is length + 1 := by
  have hfirst : ((List.take (0 + 1) (i :: is)).flatMap writeInstruction).length =
      (writeInstruction i).length := by simp
  have hlater (index : Nat) :
      ((List.take (index + 1 + 1) (i :: is)).flatMap writeInstruction).length =
        (writeInstruction i).length + ((is.take (index + 1)).flatMap writeInstruction).length := by
    simp
  rw [wholeRecords, List.length_cons, List.range_succ_eq_map, List.countP_cons, List.countP_map,
    hfirst, decide_eq_true (Nat.le_add_right _ _), if_pos rfl, wholeRecords]
  congr 1
  apply List.countP_congr
  intro index _
  simp only [Function.comp_apply, decide_eq_true_eq, hlater]
  omega

theorem readRecords_cut {is : List Instruction} (htexts : ∀ i ∈ is, TextsFit i)
    (hlists : ∀ i ∈ is, ListsFit i) (index : Nat) {cut : List UInt8}
    (hcut : cut <+: is.flatMap writeInstruction) (hne : cut ≠ is.flatMap writeInstruction) :
    readRecords index is.length cut =
      .error (.decode (index + wholeRecords is cut.length) .truncated) := by
  induction is generalizing index cut with
  | nil => exact absurd (List.prefix_nil.mp hcut) hne
  | cons i is ih =>
      have hi : Spells readInstruction (writeInstruction i) i :=
        Spells.readInstruction (htexts i List.mem_cons_self) (hlists i List.mem_cons_self)
      rw [List.flatMap_cons] at hcut hne
      rw [List.length_cons, readRecords]
      obtain ⟨hcut, hne⟩ | ⟨rest, rfl, hrest, hne⟩ := eq_append_of_isPrefix_append hcut hne
      · -- The cut lies in the first record.
        have hlt : cut.length < (writeInstruction i).length :=
          Nat.lt_of_le_of_ne hcut.length_le fun hlength => hne (hcut.eq_of_length hlength)
        rw [hi.cut cut hcut hne, wholeRecords_cons_of_lt hlt]
        rfl
      · have his := ih (fun j hj => htexts j (List.mem_cons_of_mem i hj))
          (fun j hj => hlists j (List.mem_cons_of_mem i hj)) (index + 1) hrest hne
        rw [hi.whole rest, List.length_append, wholeRecords_cons_of_le, ← Nat.add_assoc,
          Nat.add_right_comm]
        simp only [his]
        rfl

theorem readBinary_short {bs : List UInt8} (h : bs.length < 4) :
    readBinary bs = .error .truncatedHeader := if_pos h

theorem ofBytes_mark (bs : List UInt8) :
    ofBytes (mark ++ bs) = (readBinary bs).map (⟨.binary, ·⟩) := by
  rw [ofBytes, formOf_mark]
  simp only [List.drop_left]

theorem exists_append_of_isPrefix {p bs cs : List UInt8} (h : p <+: bs ++ cs)
    (hlength : bs.length ≤ p.length) : ∃ q, p = bs ++ q ∧ q <+: cs := by
  obtain ⟨q, rfl⟩ := List.prefix_of_prefix_length_le (List.prefix_append bs cs) h hlength
  exact ⟨q, rfl, (List.prefix_append_right_inj bs).mp h⟩

/-- What has been saved is not loaded from a part of it. From the header on the error names the
number of the records that the part holds as a whole, the index of the one that it breaks off in.
Nor is anything else that reads as a record taken for another one, or for a malformed one, when
bytes are missing at its end. -/
theorem truncation_located (is : List Instruction) (htexts : ∀ i ∈ is, TextsFit i)
    (bs : List UInt8) (hbs : toBytes ⟨.binary, is⟩ = .ok bs) :
    (∀ p, p <+: bs → p ≠ bs → 4 ≤ p.length →
      (p.length < 8 → ofBytes p = .error .truncatedHeader) ∧
      (8 ≤ p.length → ofBytes p =
        .error (.decode (wholeRecords is (p.length - 8)) .truncated))) ∧
    (∀ i ∈ is, ∀ p, p <+: writeInstruction i → p ≠ writeInstruction i →
      readInstruction p = .error .truncated) ∧
    ∀ record i p, readInstruction record = .ok (i, []) → p <+: record → p ≠ record →
      readInstruction p = .error .truncated := by
  have hfits : Fits is := fits_of_toBytes hbs
  have hlists := hfits.lists
  have hbinary : mark ++ (Record.toBytes 4 is.length ++ is.flatMap writeInstruction) = bs := by
    rw [toBytes_of_fits hfits, binary, List.append_assoc] at hbs
    exact Except.ok.inj hbs
  have hmark : mark.length = 4 := rfl
  have hheader : (Record.toBytes 4 is.length).length = 4 := length_toBytes 4 is.length
  refine ⟨fun p hp hne hlength => ?_, fun i hi p hp hne => ?_, fun record i p hrecord hp hne => ?_⟩
  · rw [← hbinary] at hp hne
    obtain ⟨body, rfl, hbody⟩ := exists_append_of_isPrefix hp hlength
    rw [ofBytes_mark, List.length_append, hmark]
    refine ⟨fun hshort => ?_, fun hlong => ?_⟩
    · rw [readBinary_short (by omega)]
      rfl
    · obtain ⟨cut, rfl, hcut⟩ := exists_append_of_isPrefix hbody (by omega)
      have hcutne : cut ≠ is.flatMap writeInstruction := by
        rintro rfl
        exact hne rfl
      have hcutlength :
          4 + (Record.toBytes 4 is.length ++ cut).length - 8 = cut.length := by
        rw [List.length_append, hheader]
        omega
      rw [readBinary_count hfits.count, readRecords_cut htexts hlists 0 hcut hcutne, hcutlength,
        Nat.zero_add]
      rfl
  · exact (Spells.readInstruction (htexts i hi) (hlists i hi)).cut p hp hne
  · exact SelfDelimiting.readInstruction.truncated hrecord hp hne

theorem truncation_located_character :
    let is : List Instruction :=
      [{ command := .builtin .wait, ints := [500] }, { command := .custom "é", chars := ['é'] }]
    let bs := binary is
    (∀ i ∈ is, TextsFit i) ∧ toBytes ⟨.binary, is⟩ = .ok bs ∧
      (bs.dropLast <+: bs ∧ bs.dropLast ≠ bs ∧ 8 ≤ bs.dropLast.length) ∧
      ofBytes bs.dropLast = .error (.decode 1 .truncated) := by
  intro is bs
  have htexts : ∀ i ∈ is, TextsFit i := by
    simp [is, TextsFit, texts, Utf8.encode, Utf8.encodeChar]
  have hbs : toBytes ⟨.binary, is⟩ = .ok bs := rfl
  have hcut : bs.dropLast <+: bs ∧ bs.dropLast ≠ bs ∧ 8 ≤ bs.dropLast.length :=
    ⟨List.dropLast_prefix bs, by decide +kernel, by decide +kernel⟩
  obtain ⟨hcut, hne, hlength⟩ := hcut
  have hlocated := ((truncation_located is htexts bs hbs).1 _ hcut hne
    (Nat.le_trans (by decide) hlength)).2 hlength
  have hwhole : wholeRecords is (bs.dropLast.length - 8) = 1 := by decide +kernel
  rw [hwhole] at hlocated
  exact ⟨htexts, hbs, ⟨hcut, hne, hlength⟩, hlocated⟩

end Cutscene.Script
