import Cutscene.Json
import Cutscene.Program.Arguments
import Cutscene.Program.Outcome

namespace Cutscene

namespace Json

def command : Command → Json
  | .builtin opcode => .object [("kind", .string "builtin"), ("name", .string opcode.name)]
  | .custom name => .object [("kind", .string "custom"), ("name", .string name)]

def instruction (i : Instruction) : Json :=
  .object
    [("command", command i.command),
      ("booleans", .array (i.booleans.map .bool)),
      ("chars", .array (i.chars.map fun c => .string c.toString)),
      ("strings", .array (i.strings.map .string)),
      ("decimals", .array (i.decimals.map fun d => .string (String.ofList d.text))),
      ("doubles", .array (i.doubles.map double)),
      ("floats", .array (i.floats.map fun x => single x.toFloat32)),
      ("ints", .array (i.ints.map fun n => int n.toInt)),
      ("uints", .array (i.uints.map fun n => nat n.toNat))]

def formName : ScriptForm → String
  | .binary => "binary"
  | .text => "text"

def script (s : Script) : Json :=
  .object [("format", .string (formName s.form)),
    ("instructions", .array (s.instructions.map instruction))]

end Json

namespace Dump

structure Options where
  path : String := ""
  json : Bool := false

def pathSlot {ο : Type} (label : String) (repeatable : Bool) (set : String → ο → ο) : Slot ο where
  label := label
  repeatable := repeatable
  read value options := if value.isEmpty then .error .empty else .ok (set value options)

def commandLine : CommandLine Options where
  switches := [.flag "--json" fun o => { o with json := true }]
  operand := some (pathSlot "<PATH>" false fun path o => { o with path })
  conflict := none

def remark (command : Command) : String :=
  match command with
  | .custom _ => "custom"
  | .builtin opcode =>
      if opcode.reserved then "reserved" else if opcode.suspends then "waits" else ""

def padLeft (width : Nat) (s : String) : String :=
  String.ofList (List.replicate (width - s.length) ' ') ++ s

def padRight (width : Nat) (s : String) : String :=
  s ++ String.ofList (List.replicate (width - s.length) ' ')

def line (index : Nat) (i : Instruction) : String :=
  padLeft 5 (toString index) ++ "  " ++ padRight 8 (remark i.command) ++ "  " ++
    String.ofList (Source.writeLine i)

def title : ScriptForm → String
  | .binary => "Binary"
  | .text => "Text"

def listing (path : String) (s : Script) : List String :=
  (title s.form ++ " script " ++ path ++ " (" ++ toString s.instructions.length ++
    " instructions)") :: s.instructions.mapIdx line

def execute (o : Options) (disk : Disk) : Outcome :=
  match disk.openScript o.path with
  | .error e => .failed ("loading cutscene " ++ o.path) e.chain [] disk
  | .ok s => ⟨0, if o.json then [(Json.script s).text] else listing o.path s, [], disk⟩

def run (arguments : List String) (disk : Disk) : Outcome :=
  match commandLine.parse {} arguments with
  | .error e => ⟨2, [], [e.complaint], disk⟩
  | .ok o => execute o disk

end Dump

end Cutscene
