import Cutscene.Text.Quoted
import Cutscene.Text.Utf8

namespace Cutscene.Record

inductive DecodeError where
  | unknownOpcode (ordinal : UInt8)
  | badLength
  | invalidUtf8 (place : String)
  | badDecimalScale (scale : Nat)
  | truncated
  deriving DecidableEq, Repr

def DecodeError.message : DecodeError → String
  | .unknownOpcode ordinal => "unknown opcode ordinal 0x" ++ Text.hexByte ordinal
  | .badLength => "malformed 7-bit length prefix"
  | .invalidUtf8 place => "invalid UTF-8 in " ++ place
  | .badDecimalScale scale => "decimal scale " ++ toString scale ++ " is out of range"
  | .truncated => "unexpected end of stream"

abbrev Reader := StateT (List UInt8) (Except DecodeError)

def readByte : Reader UInt8
  | [] => .error .truncated
  | b :: bs => .ok (b, bs)

def readMany {α : Type} (read : Reader α) : Nat → Reader (List α)
  | 0 => pure []
  | n + 1 => do
      let value ← read
      let values ← readMany read n
      pure (value :: values)

def readBytes (n : Nat) : Reader (List UInt8) := readMany readByte n

def ofBytes : List UInt8 → Nat
  | [] => 0
  | b :: bs => b.toNat + 0x100 * ofBytes bs

def toBytes : Nat → Nat → List UInt8
  | 0, _ => []
  | width + 1, n => UInt8.ofNat n :: toBytes width (n / 0x100)

def readWord (width : Nat) : Reader Nat := do
  let bs ← readBytes width
  pure (ofBytes bs)

end Cutscene.Record
