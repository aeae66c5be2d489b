import Cutscene.Proofs.Record.Reading
import Cutscene.Record.Codec

namespace Cutscene.Record

variable {α β : Type}

def SelfDelimiting (read : Reader α) : Prop :=
  ∀ bs a rest, read bs = .ok (a, rest) → ∃ taken, bs = taken ++ rest ∧ Spells read taken a

namespace SelfDelimiting

theorem pure (a : α) : SelfDelimiting (Pure.pure a) := by
  intro bs b rest h
  cases h
  exact ⟨[], rfl, Spells.pure a⟩

theorem throw (e : DecodeError) : SelfDelimiting (throw e : Reader α) := by
  intro bs a rest h
  cases h

theorem liftM (x : Except DecodeError α) : SelfDelimiting (liftM x : Reader α) := by
  cases x with
  | error e => exact throw e
  | ok a => exact pure a

theorem bind {read : Reader α} {next : α → Reader β} (h : SelfDelimiting read)
    (hnext : ∀ a, SelfDelimiting (next a)) : SelfDelimiting (read >>= next) := by
  intro bs b rest hboth
  obtain ⟨a, mid, ha, hb⟩ := exists_of_bind_eq_ok hboth
  obtain ⟨first, rfl, hfirst⟩ := h bs a mid ha
  obtain ⟨second, rfl, hsecond⟩ := hnext a mid b rest hb
  exact ⟨first ++ second, (List.append_assoc first second rest).symm, hfirst.bind hsecond⟩

theorem map {read : Reader α} (h : SelfDelimiting read) (f : α → β) :
    SelfDelimiting (read >>= fun a => Pure.pure (f a)) := h.bind fun a => pure (f a)

theorem readByte : SelfDelimiting readByte := by
  intro bs b rest h
  exact ⟨[b], readByte_eq_ok h, Spells.readByte b⟩

theorem readMany {read : Reader α} (h : SelfDelimiting read) (n : Nat) :
    SelfDelimiting (readMany read n) := by
  induction n with
  | zero => exact pure []
  | succ n ih => exact h.bind fun a => ih.map (a :: ·)

theorem readBytes (n : Nat) : SelfDelimiting (readBytes n) := readByte.readMany n

theorem readWord (width : Nat) : SelfDelimiting (readWord width) := (readBytes width).map ofBytes

theorem readGroups (fuel : Nat) : SelfDelimiting (readGroups fuel) := by
  induction fuel with
  | zero => exact throw .badLength
  | succ fuel ih =>
      apply readByte.bind
      intro b
      split
      · exact pure _
      · exact ih.map _

theorem readLength : SelfDelimiting readLength := (readGroups 5).map _

theorem readString (place : String) : SelfDelimiting (readString place) :=
  readLength.bind fun length => (readBytes length).bind fun bs => liftM (nameOfUtf8 place bs)

theorem readBool : SelfDelimiting readBool := readByte.map _

/-- All bytes that the first one announces are taken, so what is wrong with them is found only when
they are there. -/
theorem readChar : SelfDelimiting readChar := by
  apply readByte.bind
  intro lead
  cases charWidth lead with
  | none => exact throw _
  | some width =>
      apply (readBytes (width - 1)).bind
      intro rest
      split
      · exact pure _
      · exact throw _

theorem readDecimal : SelfDelimiting readDecimal :=
  (readWord 12).bind fun magnitude => (readWord 4).bind fun flags =>
    liftM (decimalOf magnitude flags)

theorem readDouble : SelfDelimiting readDouble := (readWord 8).map _

theorem readSingle : SelfDelimiting readSingle := (readWord 4).map _

theorem readUInt : SelfDelimiting readUInt := (readWord 4).map _

theorem readInt : SelfDelimiting readInt := readUInt.map _

theorem readList {read : Reader α} (h : SelfDelimiting read) (mask : UInt8) (kind : Kind) :
    SelfDelimiting (readList mask kind read) := by
  rw [Record.readList]
  split
  · exact pure []
  · exact readByte.bind fun count => h.readMany count.toNat

theorem readCommand : SelfDelimiting readCommand := by
  apply readByte.bind
  intro ordinal
  split
  · exact (readString _).map Command.custom
  · cases Opcode.ofOrdinal? ordinal with
    | none => exact throw _
    | some opcode => exact pure _

theorem readInstruction : SelfDelimiting readInstruction := by
  apply readCommand.bind
  intro command
  apply readByte.bind
  intro mask
  apply (readBool.readList mask .boolean).bind
  intro booleans
  apply (readChar.readList mask .char).bind
  intro chars
  apply ((readString _).readList mask .string).bind
  intro strings
  apply (readDecimal.readList mask .decimal).bind
  intro decimals
  apply (readDouble.readList mask .double).bind
  intro doubles
  apply (readSingle.readList mask .float).bind
  intro floats
  apply (readInt.readList mask .int).bind
  intro ints
  exact (readUInt.readList mask .uint).map _

theorem truncated {read : Reader α} (h : SelfDelimiting read) {whole cut : List UInt8} {a : α}
    (hwhole : read whole = .ok (a, [])) (hcut : cut <+: whole) (hne : cut ≠ whole) :
    read cut = .error .truncated := by
  obtain ⟨taken, htaken, hspells⟩ := h whole a [] hwhole
  rw [List.append_nil] at htaken
  rw [htaken] at hcut hne
  exact hspells.cut cut hcut hne

end SelfDelimiting

end Cutscene.Record
