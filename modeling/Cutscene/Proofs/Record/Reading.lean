import Cutscene.Proofs.Except
import Cutscene.Proofs.Record.Field

namespace Cutscene.Record

variable {α β : Type}

theorem exists_of_bind_eq_ok {read : Reader α} {next : α → Reader β} {bs rest : List UInt8} {b : β}
    (h : (read >>= next) bs = .ok (b, rest)) :
    ∃ a mid, read bs = .ok (a, mid) ∧ next a mid = .ok (b, rest) := by
  change (read bs >>= fun p => next p.1 p.2) = _ at h
  obtain ⟨⟨a, mid⟩, ha, hb⟩ := bind_eq_ok h
  exact ⟨a, mid, ha, hb⟩

theorem liftM_eq_ok {x : Except DecodeError α} {bs rest : List UInt8} {a : α}
    (h : (liftM x : Reader α) bs = .ok (a, rest)) : x = .ok a ∧ bs = rest := by
  cases x with
  | error e => cases h
  | ok a =>
      cases h
      exact ⟨rfl, rfl⟩

theorem readByte_eq_ok {bs rest : List UInt8} {b : UInt8} (h : readByte bs = .ok (b, rest)) :
    bs = b :: rest := by
  cases bs with
  | nil => cases h
  | cons c bs =>
      cases h
      rfl

theorem readMany_succ_eq_ok {read : Reader α} {n : Nat} {bs rest : List UInt8} {as : List α}
    (h : readMany read (n + 1) bs = .ok (as, rest)) :
    ∃ a mid as', read bs = .ok (a, mid) ∧ readMany read n mid = .ok (as', rest) ∧ as = a :: as' := by
  obtain ⟨a, mid, ha, h⟩ := exists_of_bind_eq_ok h
  obtain ⟨as', mid', has, h⟩ := exists_of_bind_eq_ok h
  cases h
  exact ⟨a, mid, as', ha, has, rfl⟩

theorem length_of_readMany_eq_ok {read : Reader α} {n : Nat} {bs rest : List UInt8} {as : List α}
    (h : readMany read n bs = .ok (as, rest)) : as.length = n := by
  induction n generalizing bs as with
  | zero =>
      cases h
      rfl
  | succ n ih =>
      obtain ⟨a, mid, as', -, has, rfl⟩ := readMany_succ_eq_ok h
      rw [List.length_cons, ih has]

theorem of_mem_readMany {P : α → Prop} {read : Reader α}
    (hread : ∀ bs a rest, read bs = .ok (a, rest) → P a) {n : Nat} {bs rest : List UInt8}
    {as : List α} (h : readMany read n bs = .ok (as, rest)) : ∀ a ∈ as, P a := by
  induction n generalizing bs as with
  | zero =>
      cases h
      exact nofun
  | succ n ih =>
      obtain ⟨a, mid, as', ha, has, rfl⟩ := readMany_succ_eq_ok h
      exact List.forall_mem_cons.mpr ⟨hread bs a mid ha, ih has⟩

/-- The reader takes the spelling of the writer and no other. -/
def Inverts (read : Reader α) (write : α → List UInt8) : Prop :=
  ∀ bs a rest, read bs = .ok (a, rest) → bs = write a ++ rest

namespace Inverts

theorem readByte : Inverts readByte fun b => [b] :=
  fun _ _ _ h => readByte_eq_ok h

theorem readMany {read : Reader α} {write : α → List UInt8} (h : Inverts read write) (n : Nat) :
    Inverts (readMany read n) fun as => as.flatMap write := by
  intro bs as rest hmany
  induction n generalizing bs as with
  | zero =>
      cases hmany
      rfl
  | succ n ih =>
      obtain ⟨a, mid, as', ha, has, rfl⟩ := readMany_succ_eq_ok hmany
      rw [h bs a mid ha, ih mid as' has]
      simp only [List.flatMap_cons, List.append_assoc]

theorem readBytes (n : Nat) : Inverts (readBytes n) fun bs => bs := by
  intro bs taken rest h
  have hbytes := readByte.readMany n bs taken rest h
  simpa using hbytes

end Inverts

theorem length_of_readBytes_eq_ok {n : Nat} {bs taken rest : List UInt8}
    (h : readBytes n bs = .ok (taken, rest)) : taken.length = n :=
  length_of_readMany_eq_ok h

theorem ofBytes_lt (bs : List UInt8) : ofBytes bs < Nat.pow 0x100 bs.length := by
  induction bs with
  | nil => exact Nat.one_pos
  | cons b bs ih =>
      have hb := b.toNat_lt
      change b.toNat + 0x100 * ofBytes bs < Nat.pow 0x100 bs.length * 0x100
      omega

theorem toBytes_ofBytes (bs : List UInt8) : toBytes bs.length (ofBytes bs) = bs := by
  induction bs with
  | nil => rfl
  | cons b bs ih =>
      have hb := b.toNat_lt
      have hlow : UInt8.ofNat (b.toNat + 0x100 * ofBytes bs) = b := by
        apply UInt8.toNat_inj.mp
        rw [UInt8.toNat_ofNat']
        omega
      have hhigh : (b.toNat + 0x100 * ofBytes bs) / 0x100 = ofBytes bs := by omega
      rw [List.length_cons, ofBytes, toBytes, hlow, hhigh, ih]

theorem readWord_eq_ok {width n : Nat} {bs rest : List UInt8}
    (h : readWord width bs = .ok (n, rest)) :
    bs = toBytes width n ++ rest ∧ n < Nat.pow 0x100 width := by
  obtain ⟨word, mid, hword, h⟩ := exists_of_bind_eq_ok h
  cases h
  have hbs := Inverts.readBytes width bs word rest hword
  have hlength : word.length = width := length_of_readBytes_eq_ok hword
  rw [← hlength, toBytes_ofBytes]
  exact ⟨hbs, ofBytes_lt word⟩

namespace Inverts

theorem readChar : Inverts readChar writeChar := by
  intro bs c rest h
  obtain ⟨lead, mid, hlead, h⟩ := exists_of_bind_eq_ok h
  cases hwidth : charWidth lead with
  | none =>
      rw [hwidth] at h
      cases h
  | some width =>
      rw [hwidth] at h
      obtain ⟨more, mid', hmore, h⟩ := exists_of_bind_eq_ok h
      cases hchar : Utf8.decodeChar (lead :: more) with
      | error fault =>
          rw [hchar] at h
          cases h
      | ok result =>
          obtain ⟨d, left⟩ := result
          rw [hchar] at h
          cases left with
          | cons b left => cases h
          | nil =>
              cases h
              have hspelled := Utf8.decodeChar_eq_ok hchar
              rw [List.append_nil] at hspelled
              rw [readByte_eq_ok hlead, readBytes _ _ _ _ hmore, writeChar, ← hspelled]
              rfl

theorem readDouble : Inverts readDouble writeDouble := by
  intro bs x rest h
  obtain ⟨n, mid, hword, h⟩ := exists_of_bind_eq_ok h
  cases h
  obtain ⟨hbs, hn⟩ := readWord_eq_ok hword
  rw [writeDouble, UInt64.toNat_ofNat_of_lt' hn]
  exact hbs

theorem readSingle : Inverts readSingle writeSingle := by
  intro bs x rest h
  obtain ⟨n, mid, hword, h⟩ := exists_of_bind_eq_ok h
  cases h
  obtain ⟨hbs, hn⟩ := readWord_eq_ok hword
  rw [writeSingle, UInt32.toNat_ofNat_of_lt' hn]
  exact hbs

theorem readUInt : Inverts readUInt writeUInt := by
  intro bs x rest h
  obtain ⟨n, mid, hword, h⟩ := exists_of_bind_eq_ok h
  cases h
  obtain ⟨hbs, hn⟩ := readWord_eq_ok hword
  rw [writeUInt, UInt32.toNat_ofNat_of_lt' hn]
  exact hbs

theorem readInt : Inverts readInt writeInt := by
  intro bs x rest h
  obtain ⟨n, mid, hword, h⟩ := exists_of_bind_eq_ok h
  cases h
  exact readUInt bs n rest hword

end Inverts

theorem nameOfUtf8_eq_ok {place s : String} {bs : List UInt8} (h : nameOfUtf8 place bs = .ok s) :
    bs = Utf8.encode s.toList := by
  rw [nameOfUtf8] at h
  split at h
  · rename_i cs hdecode
    cases h
    rw [String.toList_ofList]
    exact Utf8.decode_eq_ok hdecode
  · cases h

theorem length_writeGroups_le {fuel width n : Nat} (h : n < Nat.pow 0x80 width) (hwidth : 0 < width) :
    (writeGroups fuel n).length ≤ width := by
  induction fuel generalizing width n with
  | zero => exact Nat.zero_le width
  | succ fuel ih =>
      rw [writeGroups]
      split
      · exact hwidth
      · rename_i hn
        cases width with
        | zero => exact absurd hwidth (Nat.lt_irrefl 0)
        | succ width =>
            have hdiv : n / 0x80 < Nat.pow 0x80 width := Nat.div_lt_of_lt_mul (by
              rw [Nat.mul_comm]
              exact h)
            have hpos : 0 < width := by
              cases width with
              | zero => exact absurd h hn
              | succ width => exact Nat.succ_pos width
            exact Nat.succ_le_succ (ih hdiv hpos)

theorem readGroups_eq_ok {fuel n : Nat} {bs rest : List UInt8}
    (h : readGroups fuel bs = .ok (n, rest)) :
    ∃ taken, bs = taken ++ rest ∧ 0 < taken.length ∧ n < Nat.pow 0x80 taken.length := by
  induction fuel generalizing bs n with
  | zero => cases h
  | succ fuel ih =>
      obtain ⟨b, mid, hb, h⟩ := exists_of_bind_eq_ok h
      have hbs := readByte_eq_ok hb
      split at h
      · rename_i hlast
        cases h
        exact ⟨[b], hbs, Nat.one_pos, UInt8.lt_iff_toNat_lt.mp hlast⟩
      · obtain ⟨m, mid', hm, h⟩ := exists_of_bind_eq_ok h
        cases h
        obtain ⟨taken, rfl, -, hlt⟩ := ih hm
        refine ⟨b :: taken, hbs, Nat.succ_pos _, ?_⟩
        change b.toNat % 0x80 + 0x80 * m < Nat.pow 0x80 taken.length * 0x80
        omega

theorem readLength_eq_ok {n : Nat} {bs rest : List UInt8} (h : readLength bs = .ok (n, rest)) :
    ∃ taken, bs = taken ++ rest ∧ n < 0x100000000 ∧ (writeLength n).length ≤ taken.length := by
  obtain ⟨m, mid, hm, h⟩ := exists_of_bind_eq_ok h
  cases h
  obtain ⟨taken, hbs, hpos, hlt⟩ := readGroups_eq_ok hm
  have hn : m % 0x100000000 < 0x100000000 := Nat.mod_lt m (by decide)
  refine ⟨taken, hbs, hn, ?_⟩
  rw [writeLength, Nat.mod_eq_of_lt hn]
  exact length_writeGroups_le (Nat.lt_of_le_of_lt (Nat.mod_le m _) hlt) hpos

end Cutscene.Record
