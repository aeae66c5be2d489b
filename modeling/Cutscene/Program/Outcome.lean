import Cutscene.Program.Disk
import Cutscene.Script

namespace Cutscene

structure Outcome where
  exit : Nat
  /-- Each is printed with a line feed after it. -/
  output : List String
  errors : List String
  disk : Disk
  deriving DecidableEq

namespace Outcome

def numbered (index : Nat) (cause : String) : String :=
  let number := toString index
  String.ofList (List.replicate (5 - number.length) ' ') ++ number ++ ": " ++ cause

def report (message : String) : List String → List String
  | [] => ["Error: " ++ message]
  | [cause] => ["Error: " ++ message, "", "Caused by:", "    " ++ cause]
  | causes => ["Error: " ++ message, "", "Caused by:"] ++ causes.mapIdx numbered

def failed (message : String) (causes : List String) (output : List String) (disk : Disk) :
    Outcome :=
  ⟨1, output, report message causes, disk⟩

end Outcome

inductive OpenError where
  | disk (failure : Disk.Failure)
  | script (error : ScriptError)
  deriving DecidableEq, Repr

def OpenError.chain : OpenError → List String
  | .disk failure => [failure.message]
  | .script error => error.message :: error.causes

def Disk.openScript (d : Disk) (path : String) : Except OpenError Script :=
  match d.read path with
  | .error failure => .error (.disk failure)
  | .ok bytes => (Script.ofBytes bytes).mapError .script

end Cutscene
