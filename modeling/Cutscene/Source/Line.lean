import Cutscene.Source.Comment
import Cutscene.Source.Value

namespace Cutscene.Source

def isIgnored (c : Char) : Bool := c == '\r' || c == '\n' || c == '\t'

def readLine (line : List Char) : Except SyntaxError (Option Instruction) :=
  let code := (strip (line.filter (!isIgnored ·))).dropWhile (· == ' ')
  if code = [] then .ok none
  else do
    let name := code.takeWhile (· != ' ')
    let tokens ← tokenize ((code.dropWhile (· != ' ')).drop 1)
    let values ← tokens.mapM Token.value
    .ok (some (Instruction.ofValues (Command.ofName (String.ofList name)) values))

/-- Parameters are written list after list, whatever order they were read in. -/
def writeLine (i : Instruction) : List Char :=
  (Text.lowerFirst i.command.name).toList ++ i.values.flatMap fun v => ' ' :: write v

structure LineError where
  line : Nat
  cause : SyntaxError
  deriving DecidableEq, Repr

def LineError.message (e : LineError) : String :=
  "line " ++ toString e.line ++ ": " ++ e.cause.message

def readLinesFrom (number : Nat) : List (List Char) → Except LineError (List Instruction)
  | [] => .ok []
  | line :: lines =>
      match readLine line with
      | .error cause => .error ⟨number, cause⟩
      | .ok none => readLinesFrom (number + 1) lines
      | .ok (some i) => (readLinesFrom (number + 1) lines).map (i :: ·)

def readLines (lines : List (List Char)) : Except LineError (List Instruction) :=
  readLinesFrom 1 lines

/-- A line feed ends a line; what follows the last one is a line only if it is not empty. -/
def splitLines : List Char → List (List Char)
  | [] => []
  | c :: cs =>
      if c = '\n' then [] :: splitLines cs
      else
        match splitLines cs with
        | [] => [[c]]
        | line :: lines => (c :: line) :: lines

def readText (text : List Char) : Except LineError (List Instruction) := readLines (splitLines text)

def writeText (script : List Instruction) : List Char :=
  script.flatMap fun i => writeLine i ++ ['\n']

end Cutscene.Source
