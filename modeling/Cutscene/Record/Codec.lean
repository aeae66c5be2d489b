import Cutscene.Instruction
import Cutscene.Record.Field

namespace Cutscene.Record

def readList {α : Type} (mask : UInt8) (kind : Kind) (read : Reader α) : Reader (List α) :=
  if mask &&& kind.bit = 0 then pure []
  else do
    let count ← readByte
    readMany read count.toNat

def writeList {α : Type} (write : α → List UInt8) (values : List α) : List UInt8 :=
  if values = [] then [] else UInt8.ofNat values.length :: values.flatMap write

def readCommand : Reader Command := do
  let ordinal ← readByte
  if ordinal = 0 then do
    let name ← readString "custom command name"
    pure (.custom name)
  else
    match Opcode.ofOrdinal? ordinal with
    | some opcode => pure (.builtin opcode)
    | none => throw (.unknownOpcode ordinal)

def writeCommand : Command → List UInt8
  | .builtin opcode => [opcode.ordinal]
  | .custom name => 0 :: writeString name

def readInstruction : Reader Instruction := do
  let command ← readCommand
  let mask ← readByte
  let booleans ← readList mask .boolean readBool
  let chars ← readList mask .char readChar
  let strings ← readList mask .string (readString "string parameter")
  let decimals ← readList mask .decimal readDecimal
  let doubles ← readList mask .double readDouble
  let floats ← readList mask .float readSingle
  let ints ← readList mask .int readInt
  let uints ← readList mask .uint readUInt
  pure { command, booleans, chars, strings, decimals, doubles, floats, ints, uints }

def writeInstruction (i : Instruction) : List UInt8 :=
  writeCommand i.command ++ i.presence :: (writeList writeBool i.booleans ++
    writeList writeChar i.chars ++ writeList writeString i.strings ++
    writeList writeDecimal i.decimals ++ writeList writeDouble i.doubles ++
    writeList writeSingle i.floats ++ writeList writeInt i.ints ++ writeList writeUInt i.uints)

inductive EncodeError where
  | tooManyParameters (kind : Kind) (count : Nat)
  | tooManyInstructions (count : Nat)
  deriving DecidableEq, Repr

def EncodeError.message : EncodeError → String
  | .tooManyParameters kind count =>
      kind.name ++ " list holds " ++ toString count ++
        " values; at most 255 fit in a binary script"
  | .tooManyInstructions count => toString count ++ " instructions do not fit in a binary script"

/-- A list that is too long is found before anything is written. -/
def encode (i : Instruction) : Except EncodeError (List UInt8) :=
  match Kind.all.find? fun kind => 255 < i.count kind with
  | some kind => .error (.tooManyParameters kind (i.count kind))
  | none => .ok (writeInstruction i)

end Cutscene.Record
