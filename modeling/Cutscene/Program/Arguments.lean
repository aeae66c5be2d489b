import Cutscene.Text.Control
import Cutscene.Text.Ranges

namespace Cutscene

inductive ValueFault where
  | empty
  | unlisted
  | because (reason : String)
  deriving DecidableEq, Repr

structure Slot (ο : Type) where
  label : String
  repeatable : Bool
  read : String → ο → Except ValueFault ο

inductive Switch (ο : Type) where
  | flag (name : String) (set : ο → ο)
  | value (name : String) (slot : Slot ο)

def Switch.name {ο : Type} : Switch ο → String
  | .flag name _ | .value name _ => name

inductive ArgumentError where
  | unexpected (argument : String)
  | unexpectedValue (value name : String)
  | repeated (label : String)
  | badValue (value label : String) (fault : ValueFault)
  | noValue (label : String)
  | conflict (label other : String)
  | missingRequired
  deriving DecidableEq, Repr

def coloured (s : String) : String := "\x1b[33m" ++ s ++ "\x1b[0m"

def ArgumentError.message : ArgumentError → String
  | .unexpected argument => "error: unexpected argument '" ++ coloured argument ++ "' found"
  | .unexpectedValue value name =>
      "error: unexpected value '" ++ coloured value ++ "' for '" ++ name ++
        "' found; no more were expected"
  | .repeated label => "error: the argument '" ++ label ++ "' cannot be used multiple times"
  | .badValue value label (.because reason) =>
      "error: invalid value '" ++ coloured value ++ "' for '" ++ label ++ "': " ++ reason
  | .badValue value label .unlisted =>
      if value.isEmpty then "error: a value is required for '" ++ label ++ "' but none was supplied"
      else "error: invalid value '" ++ coloured value ++ "' for '" ++ label ++ "'"
  | .badValue _ label .empty | .noValue label =>
      "error: a value is required for '" ++ label ++ "' but none was supplied"
  | .conflict label other =>
      "error: the argument '" ++ label ++ "' cannot be used with '" ++ other ++ "'"
  | .missingRequired => "error: the following required arguments were not provided:"

def hint : String := "\n\nFor more information, try '\x1b[1m--help\x1b[0m'.\n"

/-- The first line of what a message shows without a terminal. A reason may hold the beginning of a
sequence that hides the end of its line, and then the line goes on in the hint. -/
def ArgumentError.complaint (e : ArgumentError) : String :=
  String.ofList ((Control.shown (e.message ++ hint).toList).takeWhile (· != '\n'))

structure CommandLine (ο : Type) where
  switches : List (Switch ο)
  /-- The place of the argument that is no switch. A program that has one needs it. -/
  operand : Option (Slot ο)
  /-- Two labels that cannot be used together. -/
  conflict : Option (String × String)

namespace CommandLine

variable {ο : Type}

/-- How far the arguments have been read. The last value may still have to be looked at. -/
structure Progress (ο : Type) where
  options : ο
  seen : List String := []
  pending : Option (Slot ο × Option String) := none
  operandSeen : Bool := false

def accept (slot : Slot ο) (value : String) (p : Progress ο) : Except ArgumentError (Progress ο) :=
  if p.seen.contains slot.label && !slot.repeatable then .error (.repeated slot.label)
  else
    match slot.read value p.options with
    | .ok options => .ok { p with options, seen := p.seen ++ [slot.label] }
    | .error fault => .error (.badValue value slot.label fault)

def settle (p : Progress ο) : Except ArgumentError (Progress ο) :=
  match p.pending with
  | none => .ok p
  | some (slot, none) => .error (.noValue slot.label)
  | some (slot, some value) => accept slot value { p with pending := none }

def splitValue (cs : List Char) : String × Option String :=
  (String.ofList (cs.takeWhile (· != '=')),
    match cs.dropWhile (· != '=') with
    | [] => none
    | _ :: value => some (String.ofList value))

def takeSwitch (c : CommandLine ο) (cs : List Char) (p : Progress ο) :
    Except ArgumentError (Progress ο) :=
  let (name, value?) := splitValue cs
  match c.switches.find? (·.name == "--" ++ name), value? with
  | none, _ => .error (.unexpected ("--" ++ name))
  | some (.flag name _), some value => .error (.unexpectedValue value name)
  | some (.flag name set), none => do
      let p ← settle p
      if p.seen.contains name then .error (.repeated name)
      else .ok { p with options := set p.options, seen := p.seen ++ [name] }
  | some (.value _ slot), some value => do
      let p ← settle p
      accept slot value p
  | some (.value _ slot), none => do
      let p ← settle p
      .ok { p with pending := some (slot, none) }

def takeOperand (c : CommandLine ο) (argument : String) (p : Progress ο) :
    Except ArgumentError (Progress ο) :=
  match c.operand, p.operandSeen with
  | some slot, false => do
      let p ← settle p
      .ok { p with pending := some (slot, some argument), operandSeen := true }
  | _, _ => .error (.unexpected argument)

/-- An argument that is no switch is the value of the switch before it, if that one waits for it. -/
def takePlain (c : CommandLine ο) (argument : String) (p : Progress ο) :
    Except ArgumentError (Progress ο) :=
  match p.pending with
  | some (slot, none) => .ok { p with pending := some (slot, some argument) }
  | _ => c.takeOperand argument p

def scan (c : CommandLine ο) (onlyOperands : Bool) (p : Progress ο) :
    List String → Except ArgumentError (Progress ο)
  | [] => settle p
  | argument :: rest =>
      if onlyOperands then do
        let p ← c.takeOperand argument p
        scan c true p rest
      else
        match argument.toList with
        | ['-', '-'] => scan c true p rest
        | '-' :: '-' :: cs => do
            let p ← c.takeSwitch cs p
            scan c false p rest
        | '-' :: d :: _ => .error (.unexpected (String.ofList ['-', d]))
        | _ => do
            let p ← c.takePlain argument p
            scan c false p rest

def clash (c : CommandLine ο) (seen : List String) : Option ArgumentError :=
  match c.conflict with
  | none => none
  | some (a, b) =>
      match seen.filter fun label => label == a || label == b with
      | [] => none
      | first :: rest => (rest.find? (· != first)).map (.conflict first)

def parse (c : CommandLine ο) (start : ο) (arguments : List String) : Except ArgumentError ο := do
  let p ← c.scan false { options := start } arguments
  match c.clash p.seen with
  | some error => .error error
  | none =>
      if c.operand.isSome && !p.operandSeen then .error .missingRequired else .ok p.options

end CommandLine

namespace Argument

def readDigits (bound n : Nat) (tooFar : String) : List Char → Except String Nat
  | [] => .ok n
  | c :: cs =>
      if !c.isDigit then .error "invalid digit found in string"
      else
        let next := 10 * n + (c.toNat - '0'.toNat)
        if bound < next then .error tooFar else readDigits bound next tooFar cs

def tooLarge : String := "number too large to fit in target type"

def tooSmall : String := "number too small to fit in target type"

def readNatural (bound : Nat) (cs : List Char) : Except String Nat :=
  match cs with
  | [] => .error "cannot parse integer from empty string"
  | ['+'] => .error "invalid digit found in string"
  | '+' :: digits => readDigits bound 0 tooLarge digits
  | digits => readDigits bound 0 tooLarge digits

def readInteger (cs : List Char) : Except String Int :=
  match cs with
  | ['-'] => .error "invalid digit found in string"
  | '-' :: digits => (readDigits 0x8000000000000000 0 tooSmall digits).map fun n => -(n : Int)
  | cs => (readNatural 0x7fffffffffffffff cs).map fun n => (n : Int)

def maxUInt32 : Nat := 0xffffffff

def maxUInt64 : Nat := 0xffffffffffffffff

def readRanged (highest : Nat) (cs : List Char) : Except String Nat := do
  let n ← readInteger cs
  if 0 ≤ n ∧ n ≤ highest then pure n.toNat
  else throw (toString n ++ " is not in 0..=" ++ toString highest)

end Argument

end Cutscene
