import Cutscene.Number.Format

namespace Cutscene.Number

def digitValue (c : Char) : Nat := c.toNat - '0'.toNat

def ofDigits (cs : List Char) : Nat := cs.foldl (fun n c => 10 * n + digitValue c) 0

def readNatural (cs : List Char) : Option Nat :=
  if cs ≠ [] ∧ cs.all Char.isDigit then some (ofDigits cs) else none

/-- The digits on both sides of the point; either side may be empty, but not both. -/
def splitAtPoint (cs : List Char) : Option (List Char × List Char) :=
  match cs.takeWhile Char.isDigit, cs.dropWhile Char.isDigit with
  | whole, [] => if whole = [] then none else some (whole, [])
  | whole, point :: fraction =>
      if point = '.' ∧ fraction.all Char.isDigit ∧ ¬ (whole = [] ∧ fraction = []) then
        some (whole, fraction)
      else none

def Format.read (f : Format) (cs : List Char) : Option Nat :=
  (splitAtPoint cs).map fun (whole, fraction) =>
    f.round (ofDigits (whole ++ fraction)) (Nat.pow 10 fraction.length)

end Cutscene.Number
