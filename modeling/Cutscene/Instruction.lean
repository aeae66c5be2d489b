import Cutscene.Opcode
import Cutscene.Number.Decimal

namespace Cutscene

inductive Command where
  | builtin (opcode : Opcode)
  | custom (name : String)
  deriving DecidableEq, Repr

namespace Command

/-- A name that the catalog does not have belongs to the host and is kept in lower case. -/
def ofName (name : String) : Command :=
  match Opcode.ofName? name with
  | some opcode => .builtin opcode
  | none => .custom (Text.lower name)

def name : Command → String
  | .builtin opcode => opcode.name
  | .custom name => name

def opcode? : Command → Option Opcode
  | .builtin opcode => some opcode
  | .custom _ => none

end Command

inductive Kind where
  | boolean
  | char
  | string
  | decimal
  | double
  | float
  | int
  | uint
  deriving DecidableEq, Repr

namespace Kind

/-- The order in which scripts of both forms write the lists. -/
def all : List Kind := [.boolean, .char, .string, .decimal, .double, .float, .int, .uint]

def name : Kind → String
  | .boolean => "boolean"
  | .char => "char"
  | .string => "string"
  | .decimal => "decimal"
  | .double => "double"
  | .float => "float"
  | .int => "int"
  | .uint => "uint"

def bit : Kind → UInt8
  | .boolean => 0x80
  | .char => 0x40
  | .string => 0x20
  | .decimal => 0x10
  | .double => 0x08
  | .float => 0x04
  | .int => 0x02
  | .uint => 0x01

end Kind

structure Instruction where
  command : Command
  booleans : List Bool := []
  chars : List Char := []
  strings : List String := []
  decimals : List Decimal := []
  doubles : List Double := []
  floats : List Single := []
  ints : List Int32 := []
  uints : List UInt32 := []
  deriving DecidableEq

inductive MissingParameter where
  | ofKind (command : String) (kind : Kind) (position : Nat)
  | number (command : String) (position : Nat)
  deriving DecidableEq, Repr

def MissingParameter.message : MissingParameter → String
  | .ofKind command kind position =>
      command ++ " has no " ++ kind.name ++ " parameter at position " ++ toString position
  | .number command position =>
      command ++ " has no numeric parameter at position " ++ toString position

namespace Instruction

def count (i : Instruction) : Kind → Nat
  | .boolean => i.booleans.length
  | .char => i.chars.length
  | .string => i.strings.length
  | .decimal => i.decimals.length
  | .double => i.doubles.length
  | .float => i.floats.length
  | .int => i.ints.length
  | .uint => i.uints.length

def presence (i : Instruction) : UInt8 :=
  (Kind.all.filter fun kind => 0 < i.count kind).foldl (fun mask kind => mask ||| kind.bit) 0

def require {α : Type} (i : Instruction) (kind : Kind) (values : List α) (position : Nat) :
    Except MissingParameter α :=
  match values[position]? with
  | some value => .ok value
  | none => .error (.ofKind i.command.name kind position)

def string (i : Instruction) (position : Nat) : Except MissingParameter String :=
  i.require .string i.strings position

def boolean (i : Instruction) (position : Nat) : Except MissingParameter Bool :=
  i.require .boolean i.booleans position

def int (i : Instruction) (position : Nat) : Except MissingParameter Int32 :=
  i.require .int i.ints position

def float (i : Instruction) (position : Nat) : Except MissingParameter Single :=
  i.require .float i.floats position

/-- The number at a position, whichever list holds it: the first list that reaches so far, in the
order of the cases below. -/
def number (i : Instruction) (position : Nat) : Except MissingParameter Float :=
  match i.uints[position]?, i.ints[position]?, i.floats[position]?, i.doubles[position]?,
      i.decimals[position]? with
  | some n, _, _, _, _ => .ok (floatOfNat n.toNat)
  | none, some n, _, _, _ => .ok (floatOfInt n.toInt)
  | none, none, some x, _, _ => .ok x.toFloat
  | none, none, none, some x, _ => .ok x.toFloat
  | none, none, none, none, some d => .ok d.toFloat
  | none, none, none, none, none => .error (.number i.command.name position)

def agree {α : Type} (same : α → α → Bool) : List α → List α → Bool
  | [], [] => true
  | a :: as, b :: bs => same a b && agree same as bs
  | _, _ => false

/-- The same command with equal values; decimals and floating-point numbers count as numbers. -/
def same (a b : Instruction) : Bool :=
  a.command == b.command && a.booleans == b.booleans && a.chars == b.chars &&
    a.strings == b.strings && agree Decimal.same a.decimals b.decimals &&
    agree Double.same a.doubles b.doubles && agree Single.same a.floats b.floats &&
    a.ints == b.ints && a.uints == b.uints

end Instruction

end Cutscene
