import Cutscene.Interpreter
import Cutscene.Program.Dump
import Cutscene.Stage.Log
import Cutscene.Stage.Recording

namespace Cutscene.Play

open Argument

structure Press where
  frame : Nat
  button : String
  deriving DecidableEq, Repr

structure Options where
  script : String := ""
  rate : Nat := 60
  maxFrames : Nat := 36000
  startIndex : Nat := 0
  presses : List Press := []
  buttons : List String := []
  resolution : Vec := Recording.defaultResolution
  recordDraws : Bool := false
  log : Option String := none

def because {α : Type} (e : Except String α) : Except ValueFault α := e.mapError .because

def splitAt? (isMark : Char → Bool) (cs : List Char) : Option (List Char × List Char) :=
  match cs.dropWhile (!isMark ·) with
  | [] => none
  | _ :: after => some (cs.takeWhile (!isMark ·), after)

def readPress (value : String) : Except String Press :=
  match splitAt? (· == ':') value.toList with
  | none => .error ("expected FRAME:BUTTON, got '" ++ value ++ "'")
  | some (frame, button) =>
      match readNatural maxUInt32 (Text.trim frame) with
      | .error reason => .error ("invalid frame '" ++ String.ofList frame ++ "': " ++ reason)
      | .ok n =>
          if Text.trim button = [] then .error ("missing button name in '" ++ value ++ "'")
          else .ok ⟨n, String.ofList (Text.trim button)⟩

def readDimension (cs : List Char) : Except String Float32 :=
  match readNatural maxUInt32 (Text.trim cs) with
  | .error reason => .error ("invalid dimension '" ++ String.ofList cs ++ "': " ++ reason)
  | .ok n => .ok (singleOfNat n)

def readResolution (value : String) : Except String Vec :=
  match splitAt? (fun c => c == 'x' || c == 'X') value.toList with
  | none => .error ("expected WIDTHxHEIGHT, got '" ++ value ++ "'")
  | some (width, height) => do
      let x ← readDimension width
      let y ← readDimension height
      pure ⟨x, y⟩

def slot (label : String) (repeatable : Bool)
    (read : String → Options → Except String Options) : Slot Options where
  label := label
  repeatable := repeatable
  read value o := because (read value o)

def commandLine : CommandLine Options where
  switches :=
    [.value "--fps" (slot "--fps <FPS>" false fun value o =>
        (readRanged maxUInt32 value.toList).map fun rate => { o with rate }),
      .value "--max-frames" (slot "--max-frames <MAX_FRAMES>" false fun value o =>
        (readRanged maxUInt32 value.toList).map fun maxFrames => { o with maxFrames }),
      .value "--start-index" (slot "--start-index <START_INDEX>" false fun value o =>
        (readNatural maxUInt64 value.toList).map fun startIndex => { o with startIndex }),
      .value "--press" (slot "--press <FRAME:BUTTON>" true fun value o =>
        (readPress value).map fun press => { o with presses := o.presses ++ [press] }),
      .value "--button" (slot "--button <NAME>" true fun value o =>
        .ok { o with buttons := o.buttons ++ [value] }),
      .value "--resolution" (slot "--resolution <RESOLUTION>" false fun value o =>
        (readResolution value).map fun resolution => { o with resolution }),
      .flag "--record-draws" fun o => { o with recordDraws := true },
      .value "--event-log-json" (Dump.pathSlot "--event-log-json <EVENT_LOG_JSON>" false
        fun path o => { o with log := some path }),
      .flag "--verbose" id]
  operand := some (Dump.pathSlot "<SCRIPT>" false fun script o => { o with script })
  conflict := none

abbrev Player := Interpreter Recording Unit

def begin? (o : Options) (bytes : List UInt8) : Except CutsceneError Player :=
  let player : Player :=
    { world := .start (Recording.defaultButtons ++ o.buttons) o.resolution }
  player.startFile bytes (some (Recording.handler, ())) o.startIndex

structure Run where
  player : Player
  /-- The presses to come, in the order of their frames. -/
  presses : List Press
  frames : Nat := 0
  failure : Option CutsceneError := none

/-- Presses of one frame keep the order they are given in. -/
def Run.start (o : Options) (player : Player) : Run where
  player := player
  presses := o.presses.mergeSort fun a b => decide (a.frame ≤ b.frame)

def fire (press : Press) (player : Player) : Player :=
  (player.tell Recording.host (.buttonPressed press.button)).push press.button

/-- The presses that are due, then one update, then the drawings. -/
def Run.next (o : Options) (r : Run) : Run :=
  let due := r.presses.takeWhile fun press => press.frame ≤ r.frames
  let player := due.foldl (fun player press => fire press player) r.player
  let (player, failure) := player.update Recording.host (Duration.frame o.rate)
  { player := if o.recordDraws then player.draw Recording.host else player
    presses := r.presses.dropWhile fun press => press.frame ≤ r.frames
    frames := r.frames + 1
    failure }

def Run.play (o : Options) : Nat → Run → Run
  | 0, r => r
  | left + 1, r =>
      if r.player.session.active && r.failure.isNone then Run.play o left (r.next o) else r

def Run.finished (r : Run) : Bool := !r.player.session.active && r.failure.isNone

def Run.toJson (o : Options) (r : Run) : Json :=
  .object (
    [("script", .string o.script), ("frames", .nat r.frames), ("finished", .bool r.finished),
      ("final_index", .nat r.player.session.index)] ++
    (match r.failure with
      | some e => [("error", .string e.message)]
      | none => []) ++
    [("events", .array (r.player.world.events.map Event.toJson))])

def Run.summary (o : Options) (r : Run) : String :=
  o.script ++ ": " ++ toString r.frames ++ " frames, " ++
    toString r.player.world.recent.length ++ " host events, stopped at instruction " ++
    toString r.player.session.index

def Run.conclude (o : Options) (printed : List String) (disk : Disk) (r : Run) : Outcome :=
  let printed := printed ++ [r.summary o]
  match r.failure with
  | some e => .failed ("cutscene " ++ o.script ++ " aborted") (e.message :: e.causes) printed disk
  | none =>
      if r.finished then ⟨0, printed, [], disk⟩
      else ⟨0, printed ++ ["still running after " ++ toString o.maxFrames ++ " frames"], [], disk⟩

def Run.report (o : Options) (disk : Disk) (r : Run) : Outcome :=
  match o.log with
  | none => r.conclude o [] disk
  | some path =>
      match disk.write path (Utf8.encode (r.toJson o).text.toList) with
      | .error failure => .failed ("writing event log to " ++ path) [failure.message] [] disk
      | .ok disk => r.conclude o ["Saved event log to " ++ path] disk

def execute (o : Options) (disk : Disk) : Outcome :=
  let loading := "loading cutscene " ++ o.script
  match disk.read o.script with
  | .error failure =>
      .failed loading ["failed to load cutscene script", failure.message] [] disk
  | .ok bytes =>
      match begin? o bytes with
      | .error e => .failed loading (e.message :: e.causes) [] disk
      | .ok player => ((Run.start o player).play o o.maxFrames).report o disk

def run (arguments : List String) (disk : Disk) : Outcome :=
  match commandLine.parse {} arguments with
  | .error e => ⟨2, [], [e.complaint], disk⟩
  | .ok o =>
      if o.rate = 0 then .failed "--fps must be at least 1" [] [] disk
      else if o.maxFrames = 0 then .failed "--max-frames must be at least 1" [] [] disk
      else execute o disk

end Cutscene.Play
