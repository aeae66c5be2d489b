import Cutscene.Number.Decimal
import Cutscene.Record.Length

namespace Cutscene.Record

def readBool : Reader Bool := do
  let b ← readByte
  pure (b != 0)

def writeBool (value : Bool) : List UInt8 := [if value then 1 else 0]

def nameOfUtf8 (place : String) (bs : List UInt8) : Except DecodeError String :=
  match Utf8.decode bs with
  | .ok cs => .ok (String.ofList cs)
  | .error _ => .error (.invalidUtf8 place)

def readString (place : String) : Reader String := do
  let length ← readLength
  let bs ← readBytes length
  nameOfUtf8 place bs

def writeString (s : String) : List UInt8 :=
  let bs := Utf8.encode s.toList
  writeLength bs.length ++ bs

def charWidth (lead : UInt8) : Option Nat :=
  if lead < 0x80 then some 1
  else if lead < 0xC0 then none
  else if lead < 0xE0 then some 2
  else if lead < 0xF0 then some 3
  else if lead < 0xF8 then some 4
  else none

/-- All announced bytes are taken before they are looked at. -/
def readChar : Reader Char := do
  let lead ← readByte
  match charWidth lead with
  | none => throw (.invalidUtf8 "char parameter")
  | some width => do
      let rest ← readBytes (width - 1)
      match Utf8.decodeChar (lead :: rest) with
      | .ok (c, []) => pure c
      | _ => throw (.invalidUtf8 "char parameter")

def writeChar (c : Char) : List UInt8 := Utf8.encodeChar c

def topBit : Nat := 0x80000000

/-- The word after the mantissa holds the scale in its third byte and the sign in its top bit; its
other bits are of no account. Zero has no sign. -/
def decimalOf (magnitude flags : Nat) : Except DecodeError Decimal :=
  let scale := flags / 0x10000 % 0x100
  if h : magnitude < Decimal.bound ∧ scale ≤ 28 then
    .ok ⟨if topBit ≤ flags then -(magnitude : Int) else magnitude, scale,
      by split <;> omega, h.2⟩
  else .error (.badDecimalScale scale)

def readDecimal : Reader Decimal := do
  let magnitude ← readWord 12
  let flags ← readWord 4
  decimalOf magnitude flags

def writeDecimal (d : Decimal) : List UInt8 :=
  toBytes 12 d.mantissa.natAbs ++
    toBytes 4 (d.scale * 0x10000 + if d.mantissa < 0 then topBit else 0)

def readDouble : Reader Double := do
  let n ← readWord 8
  pure ⟨UInt64.ofNat n⟩

def writeDouble (x : Double) : List UInt8 := toBytes 8 x.bits.toNat

def readSingle : Reader Single := do
  let n ← readWord 4
  pure ⟨UInt32.ofNat n⟩

def writeSingle (x : Single) : List UInt8 := toBytes 4 x.bits.toNat

def readUInt : Reader UInt32 := do
  let n ← readWord 4
  pure (UInt32.ofNat n)

def writeUInt (n : UInt32) : List UInt8 := toBytes 4 n.toNat

def readInt : Reader Int32 := do
  let n ← readUInt
  pure n.toInt32

def writeInt (n : Int32) : List UInt8 := writeUInt n.toUInt32

end Cutscene.Record
