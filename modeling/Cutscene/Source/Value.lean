import Cutscene.Source.Token

namespace Cutscene

inductive Value where
  | boolean (value : Bool)
  | char (value : Char)
  | string (value : String)
  | decimal (value : Decimal)
  | double (value : Double)
  | float (value : Single)
  | int (value : Int32)
  | uint (value : UInt32)
  deriving DecidableEq

def Instruction.ofValues (command : Command) (values : List Value) : Instruction where
  command := command
  booleans := values.filterMap fun | .boolean v => some v | _ => none
  chars := values.filterMap fun | .char v => some v | _ => none
  strings := values.filterMap fun | .string v => some v | _ => none
  decimals := values.filterMap fun | .decimal v => some v | _ => none
  doubles := values.filterMap fun | .double v => some v | _ => none
  floats := values.filterMap fun | .float v => some v | _ => none
  ints := values.filterMap fun | .int v => some v | _ => none
  uints := values.filterMap fun | .uint v => some v | _ => none

def Instruction.values (i : Instruction) : List Value :=
  i.booleans.map .boolean ++ i.chars.map .char ++ i.strings.map .string ++
    i.decimals.map .decimal ++ i.doubles.map .double ++ i.floats.map .float ++
    i.ints.map .int ++ i.uints.map .uint

namespace Source

inductive Shape where
  | boolean (value : Bool)
  | digit
  | numeric (body : List Char) (last : Char)
  | text
  deriving DecidableEq, Repr

def isNumeric (c : Char) : Bool := c.isDigit || c == '.'

/-- All characters but the last decide whether a longer word is a number. -/
def shape (word : List Char) : Shape :=
  let folded := word.map Char.toLower
  if folded = ['t', 'r', 'u', 'e'] then .boolean true
  else if folded = ['f', 'a', 'l', 's', 'e'] then .boolean false
  else
    match word with
    | [] => .text
    | [c] => if c.isDigit then .digit else .text
    | c :: d :: cs =>
        if (c :: d :: cs).dropLast.all isNumeric then
          .numeric (c :: d :: cs).dropLast ((d :: cs).getLast (by simp))
        else .text

def required {α : Type} (literal : List Char) (kind : Kind) (value : Option α) :
    Except SyntaxError α :=
  match value with
  | some v => .ok v
  | none => .error (.badNumber (String.ofList literal) kind)

def readInt (cs : List Char) : Option Int32 :=
  ((Number.readNatural cs).filter (· < 0x80000000)).map fun n => Int32.ofNat n

def readUInt (cs : List Char) : Option UInt32 :=
  ((Number.readNatural cs).filter (· < 0x100000000)).map fun n => UInt32.ofNat n

/-- The last character of a number names its list; without such a letter it is an int. -/
def readWord (word : List Char) : Except SyntaxError Value :=
  match shape word with
  | .boolean value => .ok (.boolean value)
  | .digit => (required word .int (readInt word)).map .int
  | .text => .ok (.string (String.ofList word))
  | .numeric body last =>
      match last.toLower with
      | 'm' => (required body .decimal (Decimal.read body)).map .decimal
      | 'd' => (required body .double (Double.read body)).map .double
      | 'f' => (required body .float (Single.read body)).map .float
      | 'u' => (required body .uint (readUInt body)).map .uint
      | _ => (required word .int (readInt word)).map .int

def Token.value : Token → Except SyntaxError Value
  | .plain word => readWord word
  | .quoted text => .ok (.string (String.ofList text))
  | .char value => .ok (.char value)

def isSpecial (c : Char) : Bool := c == '#' || c == '"' || c == '\'' || c == '\\'

def escape (cs : List Char) : List Char :=
  cs.flatMap fun c => if isSpecial c then ['\\', c] else [c]

def needsQuotes (cs : List Char) : Bool := cs.isEmpty || cs.contains ' ' || shape cs != .text

def intDigits (n : Int) : List Char :=
  if n < 0 then '-' :: Number.digits n.natAbs else Number.digits n.natAbs

def write : Value → List Char
  | .boolean value => if value then ['t', 'r', 'u', 'e'] else ['f', 'a', 'l', 's', 'e']
  | .char value => '\'' :: escape [value] ++ ['\'']
  | .string value =>
      if needsQuotes value.toList then '"' :: escape value.toList ++ ['"'] else escape value.toList
  | .decimal value => value.text ++ ['m']
  | .double value => value.text ++ ['d']
  | .float value => value.text ++ ['f']
  | .int value => intDigits value.toInt
  | .uint value => Number.digits value.toNat ++ ['u']

end Source

end Cutscene
