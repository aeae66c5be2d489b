import Cutscene.Number.Double
import Cutscene.Text.Quoted

namespace Cutscene

open Number

inductive Json where
  | null
  | bool (value : Bool)
  | number (text : String)
  | string (text : String)
  | array (items : List Json)
  | object (fields : List (String × Json))

namespace Json

def escape (c : Char) : String :=
  match c with
  | '"' => "\\\""
  | '\\' => "\\\\"
  | '\x08' => "\\b"
  | '\x0c' => "\\f"
  | '\n' => "\\n"
  | '\r' => "\\r"
  | '\t' => "\\t"
  | c => if c.toNat < 0x20 then "\\u00" ++ Text.hexByte (UInt8.ofNat c.toNat) else c.toString

def quote (s : String) : String := "\"" ++ String.join (s.toList.map escape) ++ "\""

def separate (indent : String) (parts : List String) : String :=
  "\n" ++ String.intercalate ",\n" (parts.map (indent ++ ·)) ++ "\n"

mutual

def render (indent : String) : Json → String
  | null => "null"
  | bool value => if value then "true" else "false"
  | number text => text
  | string text => quote text
  | array [] => "[]"
  | array (item :: items) =>
      "[" ++ separate (indent ++ "  ") (renderItems (indent ++ "  ") (item :: items)) ++
        indent ++ "]"
  | object [] => "\x7b\x7d"
  | object (field :: fields) =>
      "\x7b" ++ separate (indent ++ "  ") (renderFields (indent ++ "  ") (field :: fields)) ++
        indent ++ "\x7d"

def renderItems (indent : String) : List Json → List String
  | [] => []
  | item :: items => render indent item :: renderItems indent items

def renderFields (indent : String) : List (String × Json) → List String
  | [] => []
  | (name, value) :: fields =>
      (quote name ++ ": " ++ render indent value) :: renderFields indent fields

end

def text (j : Json) : String := render "" j

def nat (n : Nat) : Json := .number (toString n)

def int (n : Int) : Json := .number (toString n)

structure PlainRange where
  lowest : Int
  highest : Int

def scientific (digits : List Char) (exponent : Int) : List Char :=
  let fraction := if digits.tail = [] then [] else '.' :: digits.tail
  let sign := if exponent < 0 then '-' else '+'
  digits.take 1 ++ fraction ++ 'e' :: sign :: Number.digits exponent.natAbs

/-- The fewest digits that read back; whole numbers written without an exponent end in a zero after
the point. -/
def magnitudeText (range : PlainRange) (d : Scientific) : List Char :=
  let exponent := d.pointPosition - 1
  if d.coefficient = 0 then ['0', '.', '0']
  else if range.lowest ≤ exponent ∧ exponent ≤ range.highest then
    if 0 ≤ d.exponent then d.plain ++ ['.', '0'] else d.plain
  else scientific (digits d.coefficient) exponent

def float (f : Format) (range : PlainRange) (bits : Nat) : Json :=
  match f.quantity bits with
  | .finite negative _ =>
      let cs := magnitudeText range (f.shortest .toEven (f.magnitude bits))
      .number (String.ofList (if negative then '-' :: cs else cs))
  | _ => .null

def double (x : Double) : Json := float .double ⟨-5, 15⟩ x.bits.toNat

def single (x : Float32) : Json := float .single ⟨-6, 12⟩ x.toBits.toNat

end Json

end Cutscene
