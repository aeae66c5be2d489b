import Cutscene.Proofs.Record.Word
import Cutscene.Record.Field

namespace Cutscene.Record

theorem Spells.readBool (value : Bool) : Spells readBool (writeBool value) value := by
  have h := (Spells.readByte (if value then 1 else 0)).map (· != 0)
  cases value <;> exact h

theorem nameOfUtf8_encode (place s : String) :
    nameOfUtf8 place (Utf8.encode s.toList) = .ok s := by
  rw [nameOfUtf8, Utf8.decode_encode]
  exact congrArg Except.ok String.ofList_toList

theorem Spells.readString (place : String) {s : String}
    (h : (Utf8.encode s.toList).length < 0x100000000) :
    Spells (readString place) (writeString s) s := by
  have hname : Spells (liftM (nameOfUtf8 place (Utf8.encode s.toList)) : Reader String) [] s := by
    rw [nameOfUtf8_encode]
    exact Spells.pure s
  apply (Spells.readLength h).bind
  exact (Spells.readBytes (Utf8.encode s.toList)).bind_nil hname

theorem encodeChar_eq_cons (c : Char) :
    ∃ lead rest, Utf8.encodeChar c = lead :: rest ∧ charWidth lead = some (rest.length + 1) := by
  have hvalid : c.toNat < 0xD800 ∨ 0xDFFF < c.toNat ∧ c.toNat < 0x110000 := c.valid
  simp only [Utf8.encodeChar, charWidth, UInt8.lt_iff_toNat_lt, UInt8.reduceToNat]
  generalize c.toNat = n at hvalid ⊢
  by_cases h1 : n < 0x80
  · have hb : (UInt8.ofNat n).toNat = n := Utf8.toNat_byte (by omega)
    refine ⟨_, _, if_pos h1, ?_⟩
    rw [hb, if_pos h1]
    rfl
  rw [if_neg h1]
  by_cases h2 : n < 0x800
  · have hb : (UInt8.ofNat (0xC0 + n / 0x40)).toNat = 0xC0 + n / 0x40 := Utf8.toNat_byte (by omega)
    refine ⟨_, _, if_pos h2, ?_⟩
    rw [hb, if_neg (by omega), if_neg (by omega), if_pos (by omega)]
    rfl
  rw [if_neg h2]
  by_cases h3 : n < 0x10000
  · have hb : (UInt8.ofNat (0xE0 + n / 0x1000)).toNat = 0xE0 + n / 0x1000 :=
      Utf8.toNat_byte (by omega)
    refine ⟨_, _, if_pos h3, ?_⟩
    rw [hb, if_neg (by omega), if_neg (by omega), if_neg (by omega), if_pos (by omega)]
    rfl
  · have hb : (UInt8.ofNat (0xF0 + n / 0x40000)).toNat = 0xF0 + n / 0x40000 :=
      Utf8.toNat_byte (by omega)
    refine ⟨_, _, if_neg h3, ?_⟩
    rw [hb, if_neg (by omega), if_neg (by omega), if_neg (by omega), if_neg (by omega),
      if_pos (by omega)]
    rfl

theorem Spells.readChar (c : Char) : Spells readChar (writeChar c) c := by
  obtain ⟨lead, rest, hc, hwidth⟩ := encodeChar_eq_cons c
  have hdecode : Utf8.decodeChar (lead :: rest) = .ok (c, []) := by
    rw [← hc, ← List.append_nil (Utf8.encodeChar c)]
    exact Utf8.decodeChar_encodeChar c []
  rw [writeChar, hc]
  apply Spells.readByte_bind
  rw [hwidth]
  apply (Spells.readBytes rest).bind_nil
  rw [hdecode]
  exact Spells.pure c

theorem decimalOf_parts (d : Decimal) :
    decimalOf d.mantissa.natAbs (d.scale * 0x10000 + if d.mantissa < 0 then topBit else 0) =
      .ok d := by
  obtain ⟨mantissa, scale, hm, hs⟩ := d
  have hscale :
      (scale * 0x10000 + if mantissa < 0 then topBit else 0) / 0x10000 % 0x100 = scale := by
    rw [topBit]
    split <;> omega
  have hsign : topBit ≤ (scale * 0x10000 + if mantissa < 0 then topBit else 0) ↔ mantissa < 0 := by
    rw [topBit]
    split <;> omega
  have hmantissa :
      (if mantissa < 0 then -(mantissa.natAbs : Int) else mantissa.natAbs) = mantissa := by
    split <;> omega
  simp only [decimalOf, hscale, hsign, hmantissa]
  rw [dif_pos ⟨hm, hs⟩]

theorem flags_lt (d : Decimal) :
    (d.scale * 0x10000 + if d.mantissa < 0 then topBit else 0) < Nat.pow 0x100 4 := by
  have hs := d.scale_le
  change _ < 0x100000000
  rw [topBit]
  split <;> omega

theorem Spells.readDecimal (d : Decimal) : Spells readDecimal (writeDecimal d) d := by
  have hm : d.mantissa.natAbs < Nat.pow 0x100 12 := d.mantissa_lt
  have hparts : Spells (liftM (decimalOf d.mantissa.natAbs
      (d.scale * 0x10000 + if d.mantissa < 0 then topBit else 0)) : Reader Decimal) [] d := by
    rw [decimalOf_parts]
    exact Spells.pure d
  apply (Spells.readWord 12 hm).bind
  exact (Spells.readWord 4 (flags_lt d)).bind_nil hparts

theorem Spells.readDouble (x : Double) : Spells readDouble (writeDouble x) x := by
  have h := (Spells.readWord 8 x.bits.toNat_lt).map fun n => (⟨UInt64.ofNat n⟩ : Double)
  rwa [UInt64.ofNat_toNat] at h

theorem Spells.readSingle (x : Single) : Spells readSingle (writeSingle x) x := by
  have h := (Spells.readWord 4 x.bits.toNat_lt).map fun n => (⟨UInt32.ofNat n⟩ : Single)
  rwa [UInt32.ofNat_toNat] at h

theorem Spells.readUInt (n : UInt32) : Spells readUInt (writeUInt n) n := by
  have h := (Spells.readWord 4 n.toNat_lt).map UInt32.ofNat
  rwa [UInt32.ofNat_toNat] at h

theorem Spells.readInt (n : Int32) : Spells readInt (writeInt n) n :=
  (Spells.readUInt n.toUInt32).map UInt32.toInt32

end Cutscene.Record
