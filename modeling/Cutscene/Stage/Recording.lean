import Cutscene.Named
import Cutscene.Stage.Host
import Cutscene.Text.Quoted

namespace Cutscene

structure ButtonState where
  down : Bool := false
  blocked : Bool := false
  deriving DecidableEq, Repr

def ButtonState.isDown (b : ButtonState) : Bool := b.down && !b.blocked

structure Recording where
  /-- The latest event comes first. -/
  recent : List Event := []
  buttons : Named ButtonState
  resolution : Vec
  fullscreen : Bool := false
  forced : Bool := false
  deriving DecidableEq

namespace Recording

def defaultButtons : List String :=
  ["A", "B", "X", "Y", "Start", "Select", "Up", "Down", "Left", "Right"]

def defaultResolution : Vec := ⟨1280, 720⟩

def start (buttons : List String) (resolution : Vec) : Recording where
  buttons := buttons.foldl (fun table name => table.insert name {}) ([] : Named ButtonState)
  resolution := resolution

def events (r : Recording) : List Event := r.recent.reverse

def hold (button : String) (down : Bool) (r : Recording) : Recording :=
  { r with buttons := r.buttons.modify button ({ · with down }) }

def block (button : String) (blocked : Bool) (r : Recording) : Recording :=
  { r with buttons := r.buttons.modify button ({ · with blocked }) }

def blockAll (blocked : Bool) (r : Recording) : Recording :=
  { r with buttons := r.buttons.map fun (name, b) => (name, { b with blocked }) }

/-- What an event changes besides the log. -/
def heed (r : Recording) : Event → Recording
  | .buttonDown button => r.hold button true
  | .buttonUp button => r.hold button false
  | .blockInput button blocked => r.block button blocked
  | .blockAllInputs blocked => r.blockAll blocked
  | .changeResolution width height _ =>
      { r with resolution := ⟨singleOfInt width.toInt, singleOfInt height.toInt⟩ }
  | .fullscreen enabled => { r with fullscreen := enabled }
  | .forceResizeResolution enabled => { r with forced := enabled }
  | _ => r

def tell (event : Event) (r : Recording) : Recording :=
  let r := r.heed event
  { r with recent := event :: r.recent }

def isBlocked (button : String) (r : Recording) : Bool := (r.buttons.get? button).any (·.blocked)

def isDown (button : String) (r : Recording) : Bool := (r.buttons.get? button).any (·.isDown)

def anyDown (r : Recording) : Bool := r.buttons.any fun entry => entry.2.isDown

def imageSize : Vec := ⟨64, 64⟩

def colorLabel (c : Color) : String :=
  "#" ++ Text.hexByte c.r ++ Text.hexByte c.g ++ Text.hexByte c.b ++ Text.hexByte c.a

def host : Host Recording where
  tell := tell
  attempt event r := (none, r.tell event)
  image path _ := { label := path, size := imageSize }
  solid color size _ := { label := colorLabel color, size }
  tick _ _ r := r
  regroup group visual r := (true, r.tell (.spriteGroup visual.label group))
  hasButton button r := r.buttons.has button
  isDown := isDown
  anyDown := anyDown
  isFullscreen := fullscreen
  forcesResolution := forced
  resolution := resolution

def handler {τ : Type} : Handler τ where
  interpret name _ state := ⟨.done, [.custom name], state⟩
  update _ _ _ state := ⟨.done, [], state⟩
  signal group _ state := ([.signal group], state)

end Recording

end Cutscene
