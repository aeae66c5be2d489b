import Cutscene.Program.Convert
import Cutscene.Program.Play

namespace Cutscene.Shell

inductive Program where
  | play
  | dump
  | convert
  deriving DecidableEq, Repr

def Program.ofName? : String → Option Program
  | "play" => some .play
  | "dump" => some .dump
  | "convert" => some .convert
  | _ => none

def Program.run : Program → List String → Disk → Outcome
  | .play => Play.run
  | .dump => Dump.run
  | .convert => Convert.run

def candidates (arguments : List String) : List String :=
  arguments ++ arguments.filterMap fun argument =>
    (CommandLine.splitValue argument.toList).2

def wantsListing (arguments : List String) : Bool :=
  arguments.any fun argument => (CommandLine.splitValue argument.toList).1 == "--root"

def isThere (path : String) : IO Bool :=
  try
    let _ ← IO.FS.realPath path
    pure true
  catch _ => pure false

def lookAt (disk : Disk) (place : String) : IO Disk := do
  if ← isThere (place ++ "/.") then pure { disk with folders := disk.folders ++ [place] }
  else
    try
      let bytes ← IO.FS.readBinFile place
      pure (disk.put place bytes.toList)
    catch _ => pure disk

def look (disk : Disk) (path : String) : IO Disk :=
  let names := Path.names path
  let places := (List.range names.length).map fun n =>
    Path.key ((names.take (n + 1)).foldl Path.follow [])
  (places.filter (· != "")).foldlM lookAt disk

def lines (text : String) : List String :=
  (Source.splitLines text.toList).map String.ofList

def gather (program : Program) (arguments : List String) : IO Disk := do
  let listing ← if wantsListing arguments then (← IO.getStdin).readToEnd else pure ""
  let disk ← (candidates arguments ++ lines listing).foldlM look { files := [] }
  match program with
  | .convert => (Convert.outputs arguments disk).foldlM look disk
  | _ => pure disk

def save (before after : Disk) : IO Unit := do
  for folder in after.folders do
    if !before.folders.contains folder then IO.FS.createDirAll folder
  for (path, bytes) in after.files do
    if before.files.get? path != some bytes then IO.FS.writeBinFile path ⟨bytes.toArray⟩

def run (program : Program) (arguments : List String) : IO UInt32 := do
  let before ← gather program arguments
  let outcome := program.run arguments before
  save before outcome.disk
  outcome.output.forM IO.println
  outcome.errors.forM IO.eprintln
  pure (UInt32.ofNat outcome.exit)

end Cutscene.Shell

def main (arguments : List String) : IO UInt32 :=
  match arguments with
  | [] => do
      IO.eprintln "expected play, dump or convert"
      pure 2
  | name :: rest =>
      match Cutscene.Shell.Program.ofName? name with
      | some program => Cutscene.Shell.run program rest
      | none => do
          IO.eprintln ("unknown program " ++ name)
          pure 2
