import Cutscene.Proofs.Record.Reading
import Mathlib.Data.Nat.Digits.Defs

namespace Cutscene.Record

inductive Delimited : List UInt8 → Prop
  | last {b : UInt8} (h : b < 0x80) : Delimited [b]
  | more {b : UInt8} {bs : List UInt8} (h : ¬ b < 0x80) (hbs : Delimited bs) : Delimited (b :: bs)

/-- The number made up of the lower seven bits of each byte, those of the first byte the lowest. -/
def groupsValue (bs : List UInt8) : Nat := Nat.ofDigits 0x80 (bs.map fun b => (b &&& 0x7F).toNat)

theorem toNat_lower (b : UInt8) : (b &&& 0x7F).toNat = b.toNat % 0x80 := by
  rw [UInt8.toNat_and]
  exact Nat.and_two_pow_sub_one_eq_mod b.toNat 7

theorem groupsValue_cons (b : UInt8) (bs : List UInt8) :
    groupsValue (b :: bs) = b.toNat % 0x80 + 0x80 * groupsValue bs := by
  rw [groupsValue, List.map_cons, Nat.ofDigits_cons, toNat_lower]
  rfl

/-- All that can come of reading at most so many bytes. Only the last bytes to be looked at decide,
so the one induction is on their number. -/
inductive GroupsRead (fuel : Nat) (bs : List UInt8) : Except DecodeError (Nat × List UInt8) → Prop
  | ok {taken rest : List UInt8} (hbs : bs = taken ++ rest) (htaken : Delimited taken)
      (hlength : taken.length ≤ fuel) : GroupsRead fuel bs (.ok (groupsValue taken, rest))
  | badLength (hlength : fuel ≤ bs.length) (hmore : ∀ b ∈ bs.take fuel, ¬ b < 0x80) :
      GroupsRead fuel bs (.error .badLength)
  | truncated (hlength : bs.length < fuel) (hmore : ∀ b ∈ bs, ¬ b < 0x80) :
      GroupsRead fuel bs (.error .truncated)

theorem groupsRead (fuel : Nat) (bs : List UInt8) : GroupsRead fuel bs (readGroups fuel bs) := by
  induction fuel generalizing bs with
  | zero => exact .badLength (Nat.zero_le _) (by simp)
  | succ fuel ih =>
      cases bs with
      | nil => exact .truncated (Nat.succ_pos fuel) nofun
      | cons b bs =>
          have hread : readGroups (fuel + 1) (b :: bs) =
              (if b < 0x80 then pure b.toNat
                else do
                  let rest ← readGroups fuel
                  pure (b.toNat % 0x80 + 0x80 * rest)) bs := rfl
          rw [hread]
          split
          · rename_i hlast
            have hb : b.toNat < 0x80 := UInt8.lt_iff_toNat_lt.mp hlast
            have hvalue : groupsValue [b] = b.toNat := by
              rw [groupsValue_cons, Nat.mod_eq_of_lt hb]
              rfl
            have hok : GroupsRead (fuel + 1) (b :: bs) (.ok (groupsValue [b], bs)) :=
              .ok rfl (.last hlast) (Nat.succ_le_succ (Nat.zero_le fuel))
            rwa [hvalue] at hok
          · rename_i hmore
            have hrest := ih bs
            generalize hresult : readGroups fuel bs = result at hrest
            cases hrest with
            | @ok taken rest hbs htaken hlength =>
                rw [bind_of_ok hresult, ← groupsValue_cons]
                exact .ok (congrArg (b :: ·) hbs) (.more hmore htaken) (Nat.succ_le_succ hlength)
            | badLength hlength hall =>
                rw [bind_of_error hresult]
                exact .badLength (Nat.succ_le_succ hlength) (List.forall_mem_cons.mpr ⟨hmore, hall⟩)
            | truncated hlength hall =>
                rw [bind_of_error hresult]
                exact .truncated (Nat.succ_lt_succ hlength) (List.forall_mem_cons.mpr ⟨hmore, hall⟩)

namespace Delimited

variable {bs cs rest rest' : List UInt8} {fuel : Nat}

theorem length_pos (h : Delimited bs) : 0 < bs.length := by
  cases h <;> exact Nat.succ_pos _

theorem exists_last (h : Delimited bs) : ∃ b ∈ bs, b < 0x80 := by
  induction h with
  | @last b hb => exact ⟨b, List.mem_singleton_self b, hb⟩
  | more _ _ ih =>
      obtain ⟨b, hb, hlast⟩ := ih
      exact ⟨b, List.mem_cons_of_mem _ hb, hlast⟩

theorem append_inj (h : Delimited bs) (h' : Delimited cs) (heq : bs ++ rest = cs ++ rest') :
    bs = cs ∧ rest = rest' := by
  induction h generalizing cs with
  | last hb =>
      cases h' with
      | last =>
          obtain ⟨rfl, hrest⟩ := List.cons.inj heq
          exact ⟨rfl, hrest⟩
      | more hc => exact absurd ((List.cons.inj heq).1 ▸ hb) hc
  | more hb _ ih =>
      cases h' with
      | last hc => exact absurd ((List.cons.inj heq).1 ▸ hc) hb
      | more hc hcs =>
          obtain ⟨rfl, htail⟩ := List.cons.inj heq
          obtain ⟨rfl, hrest⟩ := ih hcs htail
          exact ⟨rfl, hrest⟩

theorem readGroups (h : Delimited bs) (hlength : bs.length ≤ fuel) (rest : List UInt8) :
    Record.readGroups fuel (bs ++ rest) = .ok (groupsValue bs, rest) := by
  have hread := groupsRead fuel (bs ++ rest)
  obtain ⟨b, hb, hlast⟩ := h.exists_last
  generalize Record.readGroups fuel (bs ++ rest) = result at hread ⊢
  cases hread with
  | ok hbs htaken =>
      obtain ⟨rfl, rfl⟩ := h.append_inj htaken hbs
      rfl
  | badLength _ hmore =>
      refine absurd hlast (hmore b ?_)
      rw [List.take_append, List.take_of_length_le hlength]
      exact List.mem_append_left _ hb
  | truncated _ hmore => exact absurd hlast (hmore b (List.mem_append_left rest hb))

/-- Of the bits in five groups the last three are beyond the 32nd. -/
theorem groupsValue_lt_iff (h : Delimited bs) (hlength : bs.length ≤ 5) :
    groupsValue bs < 0x100000000 ↔ ∀ b, bs[4]? = some b → b < 0x10 := by
  have hnil : groupsValue [] = 0 := rfl
  have hfifth (b : UInt8) : b < 0x10 ↔ b.toNat < 0x10 := UInt8.lt_iff_toNat_lt
  match bs, hlength, h with
  | [a], _, _ | [a, b], _, _ | [a, b, c], _, _ | [a, b, c, d], _, _ =>
      simp only [groupsValue_cons, hnil]
      exact ⟨fun _ => nofun, fun _ => by omega⟩
  | [a, b, c, d, e], _, .more _ (.more _ (.more _ (.more _ (.last he)))) =>
      have he' : e.toNat < 0x80 := UInt8.lt_iff_toNat_lt.mp he
      simp only [groupsValue_cons, hnil, List.getElem?_cons_succ, List.getElem?_cons_zero,
        Option.some.injEq, forall_eq', hfifth]
      omega

end Delimited

theorem readLength_eq_ok_iff {bs rest : List UInt8} {n : Nat} :
    readLength bs = .ok (n, rest) ↔
      ∃ taken, bs = taken ++ rest ∧ Delimited taken ∧ taken.length ≤ 5 ∧
        n = groupsValue taken % 0x100000000 := by
  constructor
  · intro h
    obtain ⟨m, mid, hm, h⟩ := exists_of_bind_eq_ok h
    cases h
    have hread := groupsRead 5 bs
    rw [hm] at hread
    cases hread with
    | ok hbs htaken hlength => exact ⟨_, hbs, htaken, hlength, rfl⟩
  · rintro ⟨taken, rfl, htaken, hlength, rfl⟩
    exact bind_of_ok (htaken.readGroups hlength rest)

theorem readGroups_eq_badLength_iff {fuel : Nat} {bs : List UInt8} :
    readGroups fuel bs = .error .badLength ↔
      fuel ≤ bs.length ∧ ∀ b ∈ bs.take fuel, ¬ b < 0x80 := by
  have hread := groupsRead fuel bs
  generalize readGroups fuel bs = result at hread
  cases hread with
  | @ok taken rest hbs htaken hlength =>
      refine ⟨nofun, fun h => ?_⟩
      obtain ⟨b, hb, hlast⟩ := htaken.exists_last
      have hmore := h.2
      rw [hbs, List.take_append, List.take_of_length_le hlength] at hmore
      exact absurd hlast (hmore b (List.mem_append_left _ hb))
  | badLength hlength hmore => exact ⟨fun _ => ⟨hlength, hmore⟩, fun _ => rfl⟩
  | truncated hlength hmore => exact ⟨nofun, fun h => absurd h.1 (Nat.not_le.mpr hlength)⟩

theorem readGroups_eq_truncated_iff {fuel : Nat} {bs : List UInt8} :
    readGroups fuel bs = .error .truncated ↔ bs.length < fuel ∧ ∀ b ∈ bs, ¬ b < 0x80 := by
  have hread := groupsRead fuel bs
  generalize readGroups fuel bs = result at hread
  cases hread with
  | @ok taken rest hbs htaken hlength =>
      refine ⟨nofun, fun h => ?_⟩
      obtain ⟨b, hb, hlast⟩ := htaken.exists_last
      exact absurd hlast (h.2 b (hbs ▸ List.mem_append_left rest hb))
  | badLength hlength hmore => exact ⟨nofun, fun h => absurd hlength (Nat.not_le.mpr h.1)⟩
  | truncated hlength hmore => exact ⟨fun _ => ⟨hlength, hmore⟩, fun _ => rfl⟩

theorem readLength_eq_error_iff {bs : List UInt8} {e : DecodeError} :
    readLength bs = .error e ↔ readGroups 5 bs = .error e := by
  constructor
  · intro h
    cases hread : readGroups 5 bs with
    | error fault =>
        have hfault : readLength bs = .error fault := bind_of_error hread
        rw [← h, hfault]
    | ok result =>
        have hok : readLength bs = .ok (result.1 % 0x100000000, result.2) := bind_of_ok hread
        rw [hok] at h
        cases h
  · exact bind_of_error

theorem delimited_writeLength {n : Nat} (h : n < 0x100000000) :
    Delimited (writeLength n) ∧ groupsValue (writeLength n) = n := by
  have hwhole := (Spells.readGroups 5 (Nat.lt_trans h (by decide)) (by decide)).whole []
  have hread := groupsRead 5 (writeGroups 5 n ++ [])
  rw [hwhole] at hread
  rw [writeLength, Nat.mod_eq_of_lt h]
  cases hread with
  | ok hbs htaken =>
      rw [List.append_cancel_right hbs]
      exact ⟨htaken, rfl⟩

/-- A length is what the groups of its prefix make up, modulo 2³²: exactly that number unless a fifth
byte is 16 or more, of which the upper bits are lost. A prefix is refused for its length if the top
bit is set in five bytes, and only then, and what ends before is too short. Of the prefixes that are
read as a number of 32 bits none is shorter than the one that is written, which is read back whatever
follows it. -/
theorem readLength_modulo (bs : List UInt8) :
    (∀ n rest, readLength bs = .ok (n, rest) ↔
      ∃ taken, bs = taken ++ rest ∧ Delimited taken ∧ taken.length ≤ 5 ∧
        n = groupsValue taken % 0x100000000 ∧
        (n = groupsValue taken ↔ ∀ b, taken[4]? = some b → b < 0x10)) ∧
      (readLength bs = .error .badLength ↔ 5 ≤ bs.length ∧ ∀ b ∈ bs.take 5, 0x80 ≤ b) ∧
      (readLength bs = .error .truncated ↔ bs.length < 5 ∧ ∀ b ∈ bs, 0x80 ≤ b) ∧
      ∀ n < 0x100000000,
        0 < (writeLength n).length ∧ (writeLength n).length ≤ 5 ∧
          groupsValue (writeLength n) = n ∧
          (∀ rest, readLength (writeLength n ++ rest) = .ok (n, rest)) ∧
          ∀ other rest, readLength (other ++ rest) = .ok (n, rest) →
            (writeLength n).length ≤ other.length := by
  simp only [← UInt8.not_lt]
  refine ⟨fun n rest => ?_, readLength_eq_error_iff.trans readGroups_eq_badLength_iff,
    readLength_eq_error_iff.trans readGroups_eq_truncated_iff, fun n hn => ?_⟩
  · rw [readLength_eq_ok_iff]
    constructor
    · rintro ⟨taken, hbs, htaken, hlength, rfl⟩
      refine ⟨taken, hbs, htaken, hlength, rfl, ?_⟩
      rw [← htaken.groupsValue_lt_iff hlength]
      omega
    · rintro ⟨taken, hbs, htaken, hlength, hvalue, -⟩
      exact ⟨taken, hbs, htaken, hlength, hvalue⟩
  · obtain ⟨hdelimited, hvalue⟩ := delimited_writeLength hn
    have hle : (writeLength n).length ≤ 5 := by
      rw [writeLength, Nat.mod_eq_of_lt hn]
      exact length_writeGroups_le (Nat.lt_trans hn (by decide)) (by decide)
    refine ⟨hdelimited.length_pos, hle, hvalue, (Spells.readLength hn).whole,
      fun other rest hread => ?_⟩
    obtain ⟨taken, hother, -, hshort⟩ := readLength_eq_ok hread
    rw [List.append_cancel_right hother]
    exact hshort

def lossyPrefix : List UInt8 := [0x81, 0x80, 0x80, 0x80, 0x10]

theorem readLength_modulo_lossyPrefix :
    groupsValue lossyPrefix = 0x100000001 ∧
      readLength (lossyPrefix ++ [0x61]) = .ok (1, [0x61]) ∧
      (writeLength 1).length ≤ lossyPrefix.length ∧
      ∀ rest, readLength (writeLength 300 ++ rest) = .ok (300, rest) := by
  obtain ⟨hread, -, -, hwritten⟩ := readLength_modulo (lossyPrefix ++ [0x61])
  have hdelimited : Delimited lossyPrefix :=
    .more (by decide) (.more (by decide) (.more (by decide) (.more (by decide)
      (.last (by decide)))))
  have hvalue : groupsValue lossyPrefix = 0x100000001 := by decide
  have hone : readLength (lossyPrefix ++ [0x61]) = .ok (1, [0x61]) := by
    refine (hread 1 [0x61]).mpr ⟨lossyPrefix, rfl, hdelimited, by decide, ?_⟩
    rw [hvalue]
    decide
  obtain ⟨-, -, -, -, hshortest⟩ := hwritten 1 (by decide)
  obtain ⟨-, -, -, hback, -⟩ := hwritten 300 (by decide)
  exact ⟨hvalue, hone, hshortest _ _ hone, hback⟩

end Cutscene.Record
