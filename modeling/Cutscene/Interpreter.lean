import Cutscene.Named
import Cutscene.Script
import Cutscene.Stage.Action

namespace Cutscene

inductive Fault where
  | unknownDrawing (name : String)
  | unknownButton (button : String)
  | missing (parameter : MissingParameter)
  | service (command cause : String)
  deriving DecidableEq, Repr

inductive CutsceneError where
  | instruction (index : Nat) (fault : Fault)
  | script (cause : ScriptError)
  deriving DecidableEq, Repr

namespace CutsceneError

def index? : CutsceneError → Option Nat
  | .instruction index _ => some index
  | .script _ => none

def message : CutsceneError → String
  | .instruction index fault =>
      "instruction " ++ toString index ++ ": " ++
        match fault with
        | .unknownDrawing name => "no drawing named " ++ Text.quoted name ++ " is loaded"
        | .unknownButton button => "unknown button " ++ Text.quoted button
        | .missing parameter => parameter.message
        | .service command _ => command ++ " failed"
  | .script _ => "failed to load cutscene script"

def causes : CutsceneError → List String
  | .instruction _ (.missing parameter) => [parameter.message]
  | .instruction _ (.service _ cause) => [cause]
  | .instruction _ _ => []
  | .script cause => cause.message :: cause.causes

end CutsceneError

structure Session where
  script : List Instruction := []
  index : Nat := 0
  pending : Option Suspension := none
  active : Bool := false
  deriving DecidableEq

def Session.current? (s : Session) : Option Instruction := s.script[s.index]?

/-- The interpreter together with the state of the host, a `σ`, and that of its handler, a `τ`. -/
structure Interpreter (σ τ : Type) where
  world : σ
  session : Session := {}
  drawings : Named Drawing := []
  camera : Motion := {}
  handler : Option (Handler τ × τ) := none

inductive Flow where
  | done
  | suspend (suspension : Suspension)
  | finish
  deriving DecidableEq

def Suspension.releasedBy (button : String) : Suspension → Bool
  | .anyButton => true
  | .button name => name == button
  | _ => false

namespace Interpreter

variable {σ τ : Type}

def start (script : List Instruction) (handler : Option (Handler τ × τ)) (index : Nat)
    (s : Interpreter σ τ) : Interpreter σ τ :=
  { s with session := { script, index, active := true }, handler }

def startFile (bytes : List UInt8) (handler : Option (Handler τ × τ)) (index : Nat)
    (s : Interpreter σ τ) : Except CutsceneError (Interpreter σ τ) :=
  match Script.ofBytes bytes with
  | .ok script => .ok (s.start script.instructions handler index)
  | .error cause => .error (.script cause)

def finish (s : Interpreter σ τ) : Interpreter σ τ :=
  { s with
    session := { s.session with active := false, pending := none }
    drawings := s.drawings.filter fun entry => entry.2.persistent }

/-- Ends the suspension, if there is one, and goes on to the next instruction. -/
def complete (s : Interpreter σ τ) : Interpreter σ τ :=
  match s.session.pending with
  | none => s
  | some _ =>
      { s with session := { s.session with pending := none, index := s.session.index + 1 } }

def withSession (f : Session → Session) (s : Interpreter σ τ) : Interpreter σ τ :=
  { s with session := f s.session }

structure Arrivals where
  drawings : List String
  camera : Bool
  deriving DecidableEq

def updateAll (host : Host σ) (elapsed : Duration) :
    Named Drawing → σ → Named (Drawing × Bool) × σ
  | [], world => ([], world)
  | (name, d) :: rest, world =>
      let (updated, world) := d.update host.tick elapsed world
      let (others, world) := updateAll host elapsed rest world
      ((name, updated) :: others, world)

def animate (host : Host σ) (elapsed : Duration) (s : Interpreter σ τ) :
    Interpreter σ τ × Arrivals :=
  let (updated, world) := updateAll host elapsed s.drawings s.world
  let (camera, cameraArrived) := s.camera.advance elapsed.singleSeconds
  ({ s with world, drawings := updated.map fun (name, d, _) => (name, d), camera },
    ⟨(updated.filter fun (_, _, arrived) => arrived).map (·.1), cameraArrived⟩)

def Arrivals.meet (a : Arrivals) : Option Suspension → Bool
  | some (.drawingPosition name) => a.drawings.contains name
  | some .cameraPosition => a.camera
  | _ => false

def tell (host : Host σ) (event : Event) (s : Interpreter σ τ) : Interpreter σ τ :=
  { s with world := host.tell event s.world }

def callHandler (host : Host σ) (hook : Handler τ → τ → Answer τ) (s : Interpreter σ τ) :
    Interpreter σ τ × Step :=
  match s.handler with
  | none => (s, .done)
  | some (handler, state) =>
      let answer := hook handler state
      let world := host.tellAll answer.events s.world
      ({ s with world, handler := some (handler, answer.state) }, answer.step)

/-- Looks again at what holds the script up; `true` if nothing does any more. -/
def poll (host : Host σ) (elapsed : Duration) (s : Interpreter σ τ) :
    Suspension → Interpreter σ τ × Except Fault Bool
  | .wait countdown =>
      let countdown := countdown.tick elapsed
      (s.withSession ({ · with pending := some (.wait countdown) }), .ok countdown.finished)
  | .button button => (s, .ok (host.isDown button s.world))
  | .anyButton => (s, .ok (host.anyDown s.world))
  | .custom =>
      match s.session.current? with
      | none => (s, .ok true)
      | some i =>
          let (s, step) := s.callHandler host fun handler => handler.update i.command.name i elapsed
          (s, .ok (step == .done))
  | .drawingPosition name =>
      (s, if s.drawings.has name then .ok false else .error (.unknownDrawing name))
  | .cameraPosition => (s, .ok false)

def changeDrawing (name : String) (f : Drawing → Drawing) (flow : Flow) (s : Interpreter σ τ) :
    Interpreter σ τ × Except Fault Flow :=
  if s.drawings.has name then ({ s with drawings := s.drawings.modify name f }, .ok flow)
  else (s, .error (.unknownDrawing name))

def place (name : String) (visual : Visual) (persistent : Option Bool) (s : Interpreter σ τ) :
    Interpreter σ τ :=
  let drawing :=
    match s.drawings.get? name with
    | some old => old.replace visual
    | none => .ofVisual visual
  let drawing := { drawing with persistent := persistent.getD drawing.persistent }
  { s with drawings := s.drawings.insert name drawing }

def load (host : Host σ) (name : String) (persistent : Option Bool) (s : Interpreter σ τ) :
    Picture → Interpreter σ τ × Except Fault Flow
  | .image path =>
      match host.attempt (.loadImage path) s.world with
      | (some cause, world) => ({ s with world }, .error (.service ("LoadDrawing " ++ name) cause))
      | (none, world) => ({ s with world }.place name (host.image path world) persistent, .ok .done)
  | .solid color size =>
      let s := s.tell host (.solidColor color size)
      (s.place name (host.solid color size s.world) persistent, .ok .done)

def changeGroup (host : Host σ) (name group : String) (s : Interpreter σ τ) :
    Interpreter σ τ × Except Fault Flow :=
  match s.drawings.get? name with
  | none => (s, .error (.unknownDrawing name))
  | some drawing =>
      let (_, world) := host.regroup group drawing.visual s.world
      ({ s with world }, .ok .done)

def sendSignal (host : Host σ) (group : String) (i : Instruction) (s : Interpreter σ τ) :
    Interpreter σ τ :=
  match s.handler with
  | none => s
  | some (handler, state) =>
      let (events, state) := handler.signal group i state
      { s with world := host.tellAll events s.world, handler := some (handler, state) }

def perform (host : Host σ) (i : Instruction) (s : Interpreter σ τ) :
    Action → Interpreter σ τ × Except Fault Flow
  | .skip => (s, .ok .done)
  | .finish => (s, .ok .finish)
  | .suspend suspension => (s, .ok (.suspend suspension))
  | .tell event => (s.tell host event, .ok .done)
  | .attempt command event =>
      match host.attempt event s.world with
      | (some cause, world) => ({ s with world }, .error (.service command cause))
      | (none, world) => ({ s with world }, .ok .done)
  | .press button event =>
      if host.hasButton button s.world then (s.tell host event, .ok .done)
      else (s, .error (.unknownButton button))
  | .awaitButton button =>
      if host.hasButton button s.world then (s, .ok (.suspend (.button button)))
      else (s, .error (.unknownButton button))
  | .load name picture persistent => s.load host name persistent picture
  | .change name f => s.changeDrawing name f .done
  | .awaitDrawing name target =>
      s.changeDrawing name (Drawing.waitFor target) (.suspend (.drawingPosition name))
  | .maximize name =>
      let resolution := host.resolution s.world
      let stretch (d : Drawing) : Drawing :=
        { d with size := resolution, motion := { d.motion with position := .zero } }
      s.changeDrawing name stretch .done
  | .spriteGroup name group => s.changeGroup host name group
  | .unload name =>
      if s.drawings.has name then ({ s with drawings := s.drawings.erase name }, .ok .done)
      else (s, .error (.unknownDrawing name))
  | .moveCamera f => ({ s with camera := f s.camera }, .ok .done)
  | .awaitCamera target =>
      ({ s with camera := s.camera.waitFor target }, .ok (.suspend .cameraPosition))
  | .fullscreen enabled =>
      let present := host.isFullscreen s.world
      let wanted := enabled.getD (!present)
      (if wanted = present then s else s.tell host (.fullscreen wanted), .ok .done)
  | .forceResizeResolution enabled =>
      let wanted := enabled.getD (!host.forcesResolution s.world)
      (s.tell host (.forceResizeResolution wanted), .ok .done)
  | .signal group => (s.sendSignal host group i, .ok .done)

/-- Carries out an instruction. Custom ones are the handler's; without one they are done at once. -/
def carryOut (host : Host σ) (i : Instruction) (s : Interpreter σ τ) :
    Interpreter σ τ × Except Fault Flow :=
  match i.command with
  | .custom name =>
      match s.callHandler host fun handler => handler.interpret name i with
      | (s, .done) => (s, .ok .done)
      | (s, .pending) => (s, .ok (.suspend .custom))
  | .builtin opcode =>
      match Action.ofInstruction i opcode with
      | .error parameter => (s, .error (.missing parameter))
      | .ok action => s.perform host i action

def follow (s : Interpreter σ τ) : Flow → Interpreter σ τ
  | .done => s.withSession fun session => { session with index := session.index + 1 }
  | .suspend suspension => s.withSession ({ · with pending := some suspension })
  | .finish => s.finish

def dispatch (host : Host σ) (i : Instruction) (s : Interpreter σ τ) :
    Interpreter σ τ × Except Fault Unit :=
  match s.carryOut host i with
  | (s, .ok flow) => (s.follow flow, .ok ())
  | (s, .error fault) => (s, .error fault)

def step (host : Host σ) (elapsed : Duration) (s : Interpreter σ τ) :
    Interpreter σ τ × Except Fault Unit :=
  match s.session.pending with
  | some suspension =>
      match s.poll host elapsed suspension with
      | (s, .ok done) => (if done then s.complete else s, .ok ())
      | (s, .error fault) => (s, .error fault)
  | none =>
      match s.session.current? with
      | none => (s.finish, .ok ())
      | some i => s.dispatch host i

def update (host : Host σ) (elapsed : Duration) (s : Interpreter σ τ) :
    Interpreter σ τ × Option CutsceneError :=
  let (s, arrivals) := s.animate host elapsed
  if s.session.active then
    let s := if arrivals.meet s.session.pending then s.complete else s
    match s.step host elapsed with
    | (s, .ok ()) => (s, none)
    | (s, .error fault) => (s.finish, some (.instruction s.session.index fault))
  else (s, none)

def draw (host : Host σ) (s : Interpreter σ τ) : Interpreter σ τ :=
  let shown := s.drawings.filter fun entry => entry.2.visible
  let events := shown.map fun (_, d) => Event.draw d.visual.label (d.params s.camera.position)
  { s with world := host.tellAll events s.world }

def push (button : String) (s : Interpreter σ τ) : Interpreter σ τ :=
  if s.session.active && s.session.pending.any (·.releasedBy button) then s.complete else s

end Interpreter

end Cutscene
