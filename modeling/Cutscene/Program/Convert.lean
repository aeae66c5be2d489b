import Cutscene.Program.Dump

namespace Cutscene.Convert

structure Options where
  scripts : List String := []
  root : Option String := none
  form : ScriptForm := .binary
  dest : Option String := none
  overwrite : Bool := false

def formSlot : Slot Options where
  label := "--to <TO>"
  repeatable := false
  read value o :=
    match value with
    | "binary" => .ok { o with form := .binary }
    | "text" => .ok { o with form := .text }
    | _ => .error .unlisted

def commandLine : CommandLine Options where
  switches :=
    [.value "--script" (Dump.pathSlot "--script <PATH>" true fun path o =>
        { o with scripts := o.scripts ++ [path] }),
      .value "--root" (Dump.pathSlot "--root <DIR>" false fun root o =>
        { o with root := some root }),
      .value "--to" formSlot,
      .value "--dest" (Dump.pathSlot "--dest <DIR>" false fun dest o =>
        { o with dest := some dest }),
      .flag "--overwrite" fun o => { o with overwrite := true }]
  operand := none
  conflict := some ("--script <PATH>", "--root <DIR>")

def extensionOf : ScriptForm → String
  | .binary => "dcut"
  | .text => "dream"

def isScript (path : String) : Bool :=
  match Path.extension? path with
  | none => false
  | some extension =>
      let folded := Text.foldAscii extension
      folded == "dream" || folded == "dcut"

def sources (o : Options) (disk : Disk) : List String :=
  if o.scripts ≠ [] then o.scripts
  else
    match o.root with
    | none => []
    | some root => (disk.within root).filter isScript

def outputPath (o : Options) (source : String) : String :=
  let renamed := Path.withExtension source (extensionOf o.form)
  match o.dest, Path.fileName? renamed with
  | some dest, some name => Path.join dest name
  | _, _ => renamed

def outputs (arguments : List String) (disk : Disk) : List String :=
  match commandLine.parse {} arguments with
  | .error _ => []
  | .ok o => (sources o disk).map (outputPath o)

inductive Result where
  | skipped
  | converted (disk : Disk)
  | failed (message : String) (causes : List String) (disk : Disk)
  deriving DecidableEq

/-- A file that cannot be written to its end keeps what came before the error. -/
def save (s : Script) (output : String) (disk : Disk) : Result :=
  let (bytes, error) := s.write
  match disk.write output bytes, error with
  | .error failure, _ => .failed ("writing " ++ output) [failure.message] disk
  | .ok disk, some error => .failed ("writing " ++ output) (error.message :: error.causes) disk
  | .ok disk, none => .converted disk

/-- Sources that are in the wanted form, or whose output is there already, are left alone. -/
def convert (o : Options) (source : String) (disk : Disk) : Result :=
  let output := outputPath o source
  if Path.same output source then .skipped
  else if disk.has output && !o.overwrite then .skipped
  else
    match disk.openScript source with
    | .error e => .failed ("loading cutscene " ++ source) e.chain disk
    | .ok s => save { s with form := o.form } output disk

def convertAll (o : Options) (count : Nat) (printed : List String) (disk : Disk) :
    List String → Outcome
  | [] => ⟨0, printed ++ ["Converted " ++ toString count ++ " script(s)"], [], disk⟩
  | source :: rest =>
      match convert o source disk with
      | .skipped => convertAll o count printed disk rest
      | .converted disk =>
          convertAll o (count + 1) (printed ++ [source ++ " -> " ++ outputPath o source]) disk rest
      | .failed message causes disk => .failed message causes printed disk

def execute (o : Options) (disk : Disk) : Outcome :=
  match sources o disk with
  | [] => .failed "no cutscene scripts to convert" [] [] disk
  | found =>
      match o.dest with
      | none => convertAll o 0 [] disk found
      | some dest =>
          match disk.makeFolders dest with
          | .error failure => .failed ("creating destination " ++ dest) [failure.message] [] disk
          | .ok disk => convertAll o 0 [] disk found

def run (arguments : List String) (disk : Disk) : Outcome :=
  match commandLine.parse {} arguments with
  | .error e => ⟨2, [], [e.complaint], disk⟩
  | .ok o => execute o disk

end Cutscene.Convert
