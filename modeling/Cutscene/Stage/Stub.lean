import Cutscene.Stage.Recording

namespace Cutscene

namespace Host

def isFromHandler : Event → Bool
  | .custom _ | .signal _ => true
  | _ => false

def note (event : Event) (r : Recording) : Recording :=
  if isFromHandler event then { r with recent := event :: r.recent } else r

/-- A host that keeps a log for its handler only. It has a single button, which is never down. -/
def bare : Host Recording where
  tell := note
  attempt _ r := (none, r)
  image path _ := { label := path, size := ⟨3, 5⟩ }
  solid _ size _ := { label := "solid", size }
  tick _ _ r := r
  regroup _ _ r := (false, r)
  hasButton button _ := button == "A"
  isDown _ _ := false
  anyDown _ := false
  isFullscreen _ := false
  forcesResolution _ := false
  resolution _ := ⟨10, 20⟩

def complaint : Event → Option String
  | .loadSound _ path _ => some ("cannot load " ++ path)
  | .playIndependentSound _ path _ _ => some ("cannot play " ++ path)
  | .loadImage path => some ("cannot decode " ++ path)
  | .changeScene scene _ => some ("no scene " ++ scene)
  | _ => none

/-- A host that can neither load anything nor change the scene. -/
def failing : Host Recording :=
  { bare with attempt := fun event r => (complaint event, r) }

end Host

namespace Handler

/-- A handler that leaves every custom instruction pending until it is asked again. -/
def quiet {τ : Type} : Handler τ where
  interpret _ _ state := ⟨.pending, [], state⟩
  update _ _ _ state := ⟨.done, [], state⟩
  signal _ _ state := ([], state)

inductive Call where
  | interpret (name : String) (presence : UInt8)
  | update (name : String) (elapsed : Duration)
  | signal (group : String) (presence : UInt8)
  deriving DecidableEq, Repr

/-- The calls so far, the latest one first, and how many more updates leave an instruction
pending. -/
structure Counter where
  calls : List Call := []
  left : Nat := 0
  deriving DecidableEq, Repr

def counting : Handler Counter where
  interpret name i c := ⟨.pending, [], { c with calls := .interpret name i.presence :: c.calls }⟩
  update name _ elapsed c :=
    ⟨if 0 < c.left then .pending else .done, [], ⟨.update name elapsed :: c.calls, c.left - 1⟩⟩
  signal group i c := ([], { c with calls := .signal group i.presence :: c.calls })

end Handler

end Cutscene
