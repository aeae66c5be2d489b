import Cutscene.Record.Reader

namespace Cutscene.Record

def readGroups : Nat → Reader Nat
  | 0 => throw .badLength
  | fuel + 1 => do
      let b ← readByte
      if b < 0x80 then pure b.toNat
      else do
        let rest ← readGroups fuel
        pure (b.toNat % 0x80 + 0x80 * rest)

/-- Lengths have 32 bits, of the five bytes that may hold one no more count. -/
def readLength : Reader Nat := do
  let n ← readGroups 5
  pure (n % 0x100000000)

def writeGroups : Nat → Nat → List UInt8
  | 0, _ => []
  | fuel + 1, n =>
      if n < 0x80 then [UInt8.ofNat n]
      else UInt8.ofNat (n % 0x80 + 0x80) :: writeGroups fuel (n / 0x80)

def writeLength (n : Nat) : List UInt8 := writeGroups 5 (n % 0x100000000)

end Cutscene.Record
