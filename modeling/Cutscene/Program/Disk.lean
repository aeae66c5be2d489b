import Cutscene.Named
import Cutscene.Program.Path

namespace Cutscene

/-- Files by their paths from the working folder, and symbolic links with the paths that they name.
The folders that hold files and links need no mention. -/
structure Disk where
  files : Named (List UInt8)
  folders : List String := []
  links : Named String := []
  deriving DecidableEq

namespace Disk

inductive Failure where
  | missing
  | exists
  | notFolder
  | isFolder
  | nameTooLong
  | tooManyLinks
  deriving DecidableEq, Repr

def Failure.message : Failure → String
  | .missing => "No such file or directory (os error 2)"
  | .exists => "File exists (os error 17)"
  | .notFolder => "Not a directory (os error 20)"
  | .isFolder => "Is a directory (os error 21)"
  | .nameTooLong => "File name too long (os error 36)"
  | .tooManyLinks => "Too many levels of symbolic links (os error 40)"

def put (path : String) (bytes : List UInt8) (d : Disk) : Disk :=
  { d with files := d.files.insert (Path.key (Path.resolve path)) bytes }

inductive Entry where
  | file (bytes : List UInt8)
  | folder
  | link (target : String)
  | vacant
  deriving DecidableEq

def keys (d : Disk) : List String := d.files.map (·.1) ++ d.links.map (·.1)

def holds (d : Disk) (place : List String) : Bool :=
  d.folders.contains (Path.key place) ||
    d.keys.any fun key => (Path.key place ++ "/").toList.isPrefixOf key.toList

def entry (d : Disk) (place : List String) : Entry :=
  if place.all Path.isOutward then .folder
  else
    match d.files.get? (Path.key place), d.links.get? (Path.key place) with
    | some bytes, _ => .file bytes
    | none, some target => .link target
    | none, none => if d.holds place then .folder else .vacant

def maxName : Nat := 255

def maxPath : Nat := 4095

/-- So many links are followed on the way along one path. -/
def maxLinks : Nat := 40

def follow (place : List String) (name : String) : Except Failure (List String) :=
  if maxName < name.utf8ByteSize then .error .nameTooLong else .ok (Path.follow place name)

/-- Follows names, each from a folder, up to the first link, from where it goes on by `jump`. -/
def walkBy (d : Disk) (jump : List String → List String → Except Failure (List String))
    (place : List String) : List String → Except Failure (List String)
  | [] => .ok place
  | name :: names =>
      match d.entry place with
      | .folder =>
          match follow place name with
          | .error failure => .error failure
          | .ok next =>
              match d.entry next with
              | .link target => jump place (Path.steps target ++ names)
              | _ => d.walkBy jump next names
      | .file _ => .error .notFolder
      | _ => .error .missing

/-- Follows names, and at most so many links. What a link says is followed from the folder that holds
it. -/
def walk (d : Disk) : Nat → List String → List String → Except Failure (List String)
  | 0 => d.walkBy fun _ _ => .error .tooManyLinks
  | links + 1 => d.walkBy (d.walk links)

def around (d : Disk) (path : String) : Except Failure (List String) :=
  if maxPath < path.utf8ByteSize then .error .nameTooLong
  else do
    let place ← d.walk maxLinks [] (Path.names path).dropLast
    match d.entry place with
    | .folder => .ok place
    | .file _ => .error .notFolder
    | _ => .error .missing

/-- The place of what a path names last, which may be a link. There need not be anything. -/
def point (d : Disk) (path : String) : Except Failure (List String) := do
  let place ← d.around path
  follow place ((Path.names path).getLastD ".")

/-- The place that a path leads to when links are followed. There need not be anything. -/
def locate (d : Disk) (path : String) : Except Failure (List String) :=
  if maxPath < path.utf8ByteSize then .error .nameTooLong else d.walk maxLinks [] (Path.names path)

def lookUp (d : Disk) (path : String) : Except Failure Entry := (d.locate path).map d.entry

def read (d : Disk) (path : String) : Except Failure (List UInt8) := do
  match ← d.lookUp path with
  | .file bytes => if Path.namesFolder path then .error .notFolder else .ok bytes
  | .folder => .error .isFolder
  | _ => .error .missing

def hasFolder (d : Disk) (path : String) : Bool :=
  match d.lookUp path with
  | .ok .folder => true
  | _ => false

def has (d : Disk) (path : String) : Bool :=
  match d.lookUp path with
  | .ok (.file _) => !Path.namesFolder path
  | .ok .folder => true
  | _ => false

def write (d : Disk) (path : String) (bytes : List UInt8) : Except Failure Disk := do
  let _ ← d.around path
  if Path.namesFolder path then .error .isFolder
  else
    let place ← d.locate path
    if d.entry place = .folder then .error .isFolder
    else .ok { d with files := d.files.insert (Path.key place) bytes }

def makeFolder (d : Disk) (path : String) : Except Failure Disk := do
  let place ← d.point path
  if d.entry place = .vacant then .ok { d with folders := d.folders ++ [Path.key place] }
  else .error .exists

def ensureFolder (d : Disk) (path : String) : Except Failure Disk :=
  if d.hasFolder path then .ok d else d.makeFolder path

/-- Makes a folder. If one on the way to it is missing, they are all made before it. -/
def makeFolders (d : Disk) (path : String) : Except Failure Disk :=
  match d.lookUp path with
  | .error .missing => do
      let d ← (Path.above path).foldlM ensureFolder d
      d.ensureFolder path
  | _ => d.ensureFolder path

def isLink (d : Disk) (path : String) : Bool :=
  match d.point path with
  | .ok place =>
      match d.entry place with
      | .link _ => !Path.namesFolder path
      | _ => false
  | .error _ => false

def inside (d : Disk) (place : List String) : List String :=
  let start := if place = [] then "" else Path.key place ++ "/"
  ((d.files.map (·.1)).filter fun path => start.toList.isPrefixOf path.toList).map fun path =>
    String.ofList (path.toList.drop start.length)

/-- The paths of all files in a folder and in the folders within it, in the order of their parts. A
file is taken for a folder that holds itself. Links are left out, but that the folder may be given by
one. -/
def within (d : Disk) (root : String) : List String :=
  match d.locate root with
  | .error _ => []
  | .ok place =>
      match d.entry place with
      | .file _ => if Path.namesFolder root || d.isLink root then [] else [root]
      | .link _ | .vacant => []
      | .folder =>
          ((d.inside place).mergeSort fun a b => Path.precedes (Path.parts a) (Path.parts b)).map
            (Path.join root)

end Disk

end Cutscene
