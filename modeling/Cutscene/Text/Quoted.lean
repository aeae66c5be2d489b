import Cutscene.Text.Hidden

namespace Cutscene.Text

def hex (n : Nat) : String := String.ofList (Nat.toDigits 16 n)

def hexByte (n : UInt8) : String := if n < 0x10 then "0" ++ hex n.toNat else hex n.toNat

def escape (c : Char) : String :=
  match c with
  | '\x00' => "\\0"
  | '\t' => "\\t"
  | '\n' => "\\n"
  | '\r' => "\\r"
  | '"' => "\\\""
  | '\\' => "\\\\"
  | c => if isHidden c then "\\u\x7b" ++ hex c.toNat ++ "\x7d" else c.toString

def quoted (s : String) : String := "\"" ++ String.join (s.toList.map escape) ++ "\""

end Cutscene.Text
