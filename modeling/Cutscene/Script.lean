import Cutscene.Record.Codec
import Cutscene.Source.Line

namespace Cutscene

inductive ScriptForm where
  | binary
  | text
  deriving DecidableEq, Repr

structure Script where
  form : ScriptForm
  instructions : List Instruction
  deriving DecidableEq

inductive ScriptError where
  | source (error : Source.LineError)
  | decode (index : Nat) (cause : Record.DecodeError)
  | truncatedHeader
  | notUtf8 (malformed : Utf8.Malformed)
  | encode (cause : Record.EncodeError)
  deriving DecidableEq, Repr

namespace ScriptError

def message : ScriptError → String
  | .source error => error.message
  | .decode index cause => "instruction " ++ toString index ++ ": " ++ cause.message
  | .truncatedHeader => "binary script header is truncated"
  | .notUtf8 _ => "text script is not valid UTF-8"
  | .encode cause => cause.message

def causes : ScriptError → List String
  | .source error => [error.cause.message]
  | .decode _ cause => [cause.message]
  | .notUtf8 malformed => [malformed.message]
  | .truncatedHeader | .encode _ => []

end ScriptError

namespace Script

def mark : List UInt8 := [0x44, 0x43, 0x55, 0x54]

def byteOrderMark : List UInt8 := [0xEF, 0xBB, 0xBF]

def dropStart (start bs : List UInt8) : Option (List UInt8) :=
  if start.isPrefixOf bs then some (bs.drop start.length) else none

def formOf (bs : List UInt8) : ScriptForm := if mark.isPrefixOf bs then .binary else .text

def readRecords (index : Nat) : Nat → List UInt8 → Except ScriptError (List Instruction)
  | 0, _ => .ok []
  | count + 1, bs =>
      match Record.readInstruction bs with
      | .error cause => .error (.decode index cause)
      | .ok (i, rest) => (readRecords (index + 1) count rest).map (i :: ·)

/-- Reads what follows the mark. Bytes after the last record are of no account. -/
def readBinary (bs : List UInt8) : Except ScriptError (List Instruction) :=
  if bs.length < 4 then .error .truncatedHeader
  else readRecords 0 (Record.ofBytes (bs.take 4)) (bs.drop 4)

def readText (bs : List UInt8) : Except ScriptError (List Instruction) :=
  match Utf8.decode ((dropStart byteOrderMark bs).getD bs) with
  | .error malformed => .error (.notUtf8 malformed)
  | .ok text => (Source.readText text).mapError .source

def ofBytes (bs : List UInt8) : Except ScriptError Script :=
  match formOf bs with
  | .binary => (readBinary (bs.drop mark.length)).map (⟨.binary, ·⟩)
  | .text => (readText bs).map (⟨.text, ·⟩)

def writeRecords : List Instruction → List UInt8 × Option ScriptError
  | [] => ([], none)
  | i :: is =>
      match Record.encode i with
      | .error cause => ([], some (.encode cause))
      | .ok bs =>
          let (rest, error) := writeRecords is
          (bs ++ rest, error)

/-- What writing the script puts out, and how it ended. -/
def write (s : Script) : List UInt8 × Option ScriptError :=
  match s.form with
  | .binary =>
      let count := s.instructions.length
      -- The count has to fit in the header, and is looked at before anything is put out.
      if 0x100000000 ≤ count then ([], some (.encode (.tooManyInstructions count)))
      else
        let (records, error) := writeRecords s.instructions
        (mark ++ Record.toBytes 4 count ++ records, error)
  | .text => (Utf8.encode (Source.writeText s.instructions), none)

def toBytes (s : Script) : Except ScriptError (List UInt8) :=
  match s.write with
  | (bs, none) => .ok bs
  | (_, some error) => .error error

end Script

end Cutscene
