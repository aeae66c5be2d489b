namespace Cutscene.Path

def split : List Char → List (List Char)
  | [] => [[]]
  | c :: cs =>
      if c = '/' then [] :: split cs
      else
        match split cs with
        | [] => [[c]]
        | part :: parts => (c :: part) :: parts

def dropTrailing : List Char → List Char
  | '/' :: cs => dropTrailing cs
  | '.' :: '/' :: cs => dropTrailing ('/' :: cs)
  | cs => cs

def trimmed (path : String) : List Char := (dropTrailing path.toList.reverse).reverse

def namesFolder (path : String) : Bool := (trimmed path).length < path.length

def splitLast (cs : List Char) : List Char × List Char :=
  ((cs.reverse.dropWhile (· != '/')).reverse, (cs.reverse.takeWhile (· != '/')).reverse)

/-- The last part, unless it is one of the two that name folders by their place. -/
def fileName? (path : String) : Option String :=
  match (splitLast (trimmed path)).2 with
  | [] | ['.'] | ['.', '.'] => none
  | name => some (String.ofList name)

/-- A name before its last point and after it. A point at the front is part of the name. -/
def splitExtension (name : List Char) : List Char × Option (List Char) :=
  let after := (name.reverse.takeWhile (· != '.')).reverse
  let before := (name.take (name.length - after.length)).dropLast
  if before = [] then (name, none) else (before, some after)

def extension? (path : String) : Option String :=
  (fileName? path).bind fun name => (splitExtension name.toList).2.map String.ofList

/-- The path with another extension in the place of its last one. Where a dot is all that stands
before that one, the two dots that are left name a folder and take no extension. -/
def withExtension (path extension : String) : String :=
  match fileName? path with
  | none => path
  | some name =>
      let folder := String.ofList (splitLast (trimmed path)).1
      match splitExtension name.toList with
      | (['.'], some _) =>
          if namesFolder path then folder ++ ".." ++ extension else folder ++ ".."
      | (stem, _) => folder ++ String.ofList stem ++ "." ++ extension

def join (folder name : String) : String :=
  if folder.toList.getLast? = some '/' then folder ++ name else folder ++ "/" ++ name

/-- The parts of a path as it is written. A leading dot or slash is a part, and other dots and
doubled slashes are nothing. -/
def parts (path : String) : List String :=
  let root := if path.toList.head? = some '/' then ["/"] else []
  let all := (split path.toList).map String.ofList
  let dot := if all.head? = some "." then ["."] else []
  root ++ dot ++ all.filter fun part => part != "" && part != "."

def precedes : List String → List String → Bool
  | [], _ => true
  | _ :: _, [] => false
  | a :: as, b :: bs => if a = b then precedes as bs else decide (a < b)

def same (a b : String) : Bool := parts a == parts b

def key : List String → String
  | "/" :: parts => "/" ++ String.intercalate "/" parts
  | parts => String.intercalate "/" parts

def above (path : String) : List String :=
  (List.range ((parts path).length - 1)).map fun n => key ((parts path).take (n + 1))

/-- The names that lead along a path one by one. A dot stays where it is, and two lead back. -/
def names (path : String) : List String :=
  let root := if path.toList.head? = some '/' then ["/"] else []
  root ++ ((split path.toList).map String.ofList).filter (· != "")

/-- The names that lead along what a link says. If that can only name a folder, one has to get into
it. -/
def steps (target : String) : List String :=
  names target ++ if namesFolder target then ["."] else []

def isOutward (part : String) : Bool := part == "/" || part == ".."

/-- The folder around the one at a place. A place is given by the parts that lead to it. -/
def leave : List String → List String
  | [] => [".."]
  | ["/"] => ["/"]
  | place => if place.getLast? = some ".." then place ++ [".."] else place.dropLast

def follow (place : List String) (name : String) : List String :=
  match name with
  | "/" => ["/"]
  | "." => place
  | ".." => leave place
  | _ => place ++ [name]

/-- Where a path leads from the working folder, if all that it leads through are folders. -/
def resolve (path : String) : List String := (names path).foldl follow []

end Cutscene.Path
