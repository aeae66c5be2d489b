import Cutscene.Proofs.Record.Codec
import Cutscene.Script

namespace Cutscene.Script

open Record

/-- The first instruction with a list too long for a record, and its first such list. -/
def IsFirstOversize (is : List Instruction) (kind : Kind) (count : Nat) : Prop :=
  ∃ before i after, is = before ++ i :: after ∧ (∀ j ∈ before, ListsFit j) ∧
    IsFirstLong i kind ∧ count = i.count kind

theorem writeRecords_of_listsFit {is : List Instruction} (h : ∀ i ∈ is, ListsFit i) :
    writeRecords is = (is.flatMap writeInstruction, none) := by
  induction is with
  | nil => rfl
  | cons i is ih =>
      have hrest := ih fun j hj => h j (List.mem_cons_of_mem i hj)
      rw [writeRecords, encode_of_listsFit (h i List.mem_cons_self), List.flatMap_cons]
      simp only [hrest]

theorem writeRecords_of_isFirstLong {before after : List Instruction} {i : Instruction}
    {kind : Kind} (hbefore : ∀ j ∈ before, ListsFit j) (hi : IsFirstLong i kind) :
    writeRecords (before ++ i :: after) =
      (before.flatMap writeInstruction,
        some (.encode (.tooManyParameters kind (i.count kind)))) := by
  induction before with
  | nil =>
      rw [List.nil_append, writeRecords, encode_of_isFirstLong hi]
      rfl
  | cons j before ih =>
      have hrest := ih fun k hk => hbefore k (List.mem_cons_of_mem j hk)
      rw [List.cons_append, writeRecords, encode_of_listsFit (hbefore j List.mem_cons_self),
        List.flatMap_cons]
      simp only [hrest]

theorem listsFit_or_exists_isFirstOversize (is : List Instruction) :
    (∀ i ∈ is, ListsFit i) ∨ ∃ kind count, IsFirstOversize is kind count := by
  induction is with
  | nil => exact Or.inl fun i hi => absurd hi List.not_mem_nil
  | cons i is ih =>
      obtain hi | ⟨kind, hi⟩ := listsFit_or_exists_isFirstLong i
      · obtain his | ⟨kind, count, before, j, after, rfl, hbefore, hj, hcount⟩ := ih
        · exact Or.inl (List.forall_mem_cons.mpr ⟨hi, his⟩)
        · exact Or.inr ⟨kind, count, i :: before, j, after, rfl,
            List.forall_mem_cons.mpr ⟨hi, hbefore⟩, hj, hcount⟩
      · exact Or.inr ⟨kind, i.count kind, [], i, is, rfl,
          fun j hj => absurd hj List.not_mem_nil, hi, rfl⟩

def binary (is : List Instruction) : List UInt8 :=
  mark ++ Record.toBytes 4 is.length ++ is.flatMap writeInstruction

theorem write_of_le_length {is : List Instruction} (h : 0x100000000 ≤ is.length) :
    write ⟨.binary, is⟩ = ([], some (.encode (.tooManyInstructions is.length))) := by
  rw [write]
  exact if_pos h

theorem write_of_length_lt {is : List Instruction} (h : is.length < 0x100000000) :
    write ⟨.binary, is⟩ =
      (mark ++ Record.toBytes 4 is.length ++ (writeRecords is).1, (writeRecords is).2) := by
  rw [write]
  exact if_neg (Nat.not_le.mpr h)

/-- What is put out of a script that no binary file can hold, and the error. -/
inductive Cut (is : List Instruction) : List UInt8 → ScriptError → Prop
  | count (h : 0x100000000 ≤ is.length) : Cut is [] (.encode (.tooManyInstructions is.length))
  | list {done rest : List Instruction} {i : Instruction} {kind : Kind}
      (hcount : is.length < 0x100000000) (hsplit : is = done ++ i :: rest)
      (hdone : ∀ j ∈ done, ListsFit j) (hlong : IsFirstLong i kind) :
      Cut is (mark ++ Record.toBytes 4 is.length ++ done.flatMap writeInstruction)
        (.encode (.tooManyParameters kind (i.count kind)))

structure Fits (is : List Instruction) : Prop where
  count : is.length < 0x100000000
  lists : ∀ i ∈ is, ListsFit i

theorem write_of_fits {is : List Instruction} (h : Fits is) :
    write ⟨.binary, is⟩ = (binary is, none) := by
  rw [write_of_length_lt h.count, writeRecords_of_listsFit h.lists, binary]

theorem write_cases (is : List Instruction) :
    (Fits is ∧ write ⟨.binary, is⟩ = (binary is, none)) ∨
      (¬ Fits is ∧ ∃ bs error, Cut is bs error ∧ write ⟨.binary, is⟩ = (bs, some error)) := by
  obtain hcount | hcount := Nat.lt_or_ge is.length 0x100000000
  · obtain hlists | ⟨kind, count, done, i, rest, hsplit, hdone, hlong, -⟩ :=
      listsFit_or_exists_isFirstOversize is
    · exact .inl ⟨⟨hcount, hlists⟩, write_of_fits ⟨hcount, hlists⟩⟩
    · have hi : ¬ ListsFit i := fun hfit => Nat.not_lt.mpr (hfit kind) hlong.1
      refine .inr ⟨fun hfits => hi (hfits.lists i (by simp [hsplit])), _, _,
        .list hcount hsplit hdone hlong, ?_⟩
      rw [write_of_length_lt hcount, hsplit, writeRecords_of_isFirstLong hdone hlong]
  · exact .inr ⟨fun hfits => absurd hfits.count (Nat.not_lt.mpr hcount), _, _, .count hcount,
      write_of_le_length hcount⟩

theorem toBytes_of_fits {is : List Instruction} (h : Fits is) :
    toBytes ⟨.binary, is⟩ = .ok (binary is) := by
  rw [toBytes, write_of_fits h]

theorem fits_of_toBytes {is : List Instruction} {bs : List UInt8}
    (h : toBytes ⟨.binary, is⟩ = .ok bs) : Fits is := by
  obtain ⟨hfits, -⟩ | ⟨-, cut, error, -, hwrite⟩ := write_cases is
  · exact hfits
  · rw [toBytes, hwrite] at h
    cases h

theorem toBytes_of_isFirstOversize {is : List Instruction} {kind : Kind} {count : Nat}
    (hcount : is.length < 0x100000000) (h : IsFirstOversize is kind count) :
    toBytes ⟨.binary, is⟩ = .error (.encode (.tooManyParameters kind count)) := by
  obtain ⟨before, i, after, rfl, hbefore, hi, rfl⟩ := h
  rw [toBytes, write_of_length_lt hcount, writeRecords_of_isFirstLong hbefore hi]

theorem readRecords_flatMap {is : List Instruction} (htexts : ∀ i ∈ is, TextsFit i)
    (hlists : ∀ i ∈ is, ListsFit i) (index : Nat) (rest : List UInt8) :
    readRecords index is.length (is.flatMap writeInstruction ++ rest) = .ok is := by
  induction is generalizing index with
  | nil => rfl
  | cons i is ih =>
      have hi : Spells readInstruction (writeInstruction i) i :=
        Spells.readInstruction (htexts i List.mem_cons_self) (hlists i List.mem_cons_self)
      have his := ih (fun j hj => htexts j (List.mem_cons_of_mem i hj))
        (fun j hj => hlists j (List.mem_cons_of_mem i hj)) (index + 1)
      rw [List.length_cons, List.flatMap_cons, List.append_assoc, readRecords, hi.whole]
      simp only [his]
      rfl

theorem readBinary_count {n : Nat} (h : n < 0x100000000) (records : List UInt8) :
    readBinary (Record.toBytes 4 n ++ records) = readRecords 0 n records := by
  have hlength : (Record.toBytes 4 n).length = 4 := length_toBytes 4 n
  have htake : (Record.toBytes 4 n ++ records).take 4 = Record.toBytes 4 n :=
    List.take_left' hlength
  have hdrop : (Record.toBytes 4 n ++ records).drop 4 = records := List.drop_left' hlength
  have henough : ¬ (Record.toBytes 4 n ++ records).length < 4 := by
    rw [List.length_append, hlength]
    omega
  rw [readBinary, if_neg henough, htake, hdrop, ofBytes_toBytes 4 h]

theorem formOf_mark (bs : List UInt8) : formOf (mark ++ bs) = .binary := by
  simp [formOf, mark, List.isPrefixOf]

theorem ofBytes_binary {is : List Instruction} (hcount : is.length < 0x100000000)
    (htexts : ∀ i ∈ is, TextsFit i) (hlists : ∀ i ∈ is, ListsFit i) (rest : List UInt8) :
    ofBytes (binary is ++ rest) = .ok ⟨.binary, is⟩ := by
  rw [binary, List.append_assoc, List.append_assoc, ofBytes, formOf_mark]
  simp only [List.drop_left]
  rw [readBinary_count hcount, readRecords_flatMap htexts hlists]
  rfl

/-- A script is refused for its first list that is too long and for nothing else. What has been
saved is read as the same script, and every record is read up to its last byte and no further. -/
theorem binary_roundTrip (is : List Instruction) (hcount : is.length < 0x100000000)
    (htexts : ∀ i ∈ is, TextsFit i) :
    ((∃ e, toBytes ⟨.binary, is⟩ = .error e) ↔ ∃ i ∈ is, ∃ kind, 255 < i.count kind) ∧
    (∀ e, toBytes ⟨.binary, is⟩ = .error e → ∃ kind count,
      e = .encode (.tooManyParameters kind count) ∧ IsFirstOversize is kind count) ∧
    (∀ bs, toBytes ⟨.binary, is⟩ = .ok bs →
      bs = mark ++ Record.toBytes 4 is.length ++ is.flatMap writeInstruction ∧
      (∀ before i after, is = before ++ i :: after → ∀ rest,
        readInstruction (writeInstruction i ++ (after.flatMap writeInstruction ++ rest)) =
          .ok (i, after.flatMap writeInstruction ++ rest)) ∧
      ∀ rest, ofBytes (bs ++ rest) = .ok ⟨.binary, is⟩) := by
  obtain hlists | ⟨kind, count, hfirst⟩ := listsFit_or_exists_isFirstOversize is
  · have hok := toBytes_of_fits ⟨hcount, hlists⟩
    refine ⟨⟨?_, ?_⟩, ?_, ?_⟩
    · rintro ⟨e, he⟩
      rw [hok] at he
      cases he
    · rintro ⟨i, hi, kind, hkind⟩
      exact absurd (hlists i hi kind) (Nat.not_le.mpr hkind)
    · intro e he
      rw [hok] at he
      cases he
    · intro bs hbs
      rw [hok] at hbs
      cases hbs
      refine ⟨rfl, ?_, ofBytes_binary hcount htexts hlists⟩
      intro before i after his rest
      have hi : i ∈ is := by rw [his]; exact List.mem_append_right before List.mem_cons_self
      exact (Spells.readInstruction (htexts i hi) (hlists i hi)).whole _
  · have herror := toBytes_of_isFirstOversize hcount hfirst
    refine ⟨⟨?_, ?_⟩, ?_, ?_⟩
    · rintro -
      obtain ⟨before, i, after, rfl, -, hi, -⟩ := hfirst
      exact ⟨i, List.mem_append_right before List.mem_cons_self, kind, hi.1⟩
    · rintro -
      exact ⟨_, herror⟩
    · intro e he
      rw [herror] at he
      cases he
      exact ⟨kind, count, rfl, hfirst⟩
    · intro bs hbs
      rw [herror] at hbs
      cases hbs

theorem binary_roundTrip_example :
    let is : List Instruction :=
      [{ command := .builtin .wait, ints := [500] }, { command := .custom "", chars := ['é'] }]
    is.length < 0x100000000 ∧ (∀ i ∈ is, TextsFit i) ∧
      ∀ bs, toBytes ⟨.binary, is⟩ = .ok bs → ∀ rest, ofBytes (bs ++ rest) = .ok ⟨.binary, is⟩ := by
  intro is
  have htexts : ∀ i ∈ is, TextsFit i := by
    simp [is, TextsFit, texts, Utf8.encode]
  have hcount : is.length < 0x100000000 := by decide
  exact ⟨hcount, htexts, fun bs hbs => ((binary_roundTrip is hcount htexts).2.2 bs hbs).2.2⟩

end Cutscene.Script
