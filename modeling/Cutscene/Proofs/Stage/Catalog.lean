import Cutscene.Proofs.Stage.Handling

namespace Cutscene

namespace Opcode

variable {opcode : Opcode}

/-- What the catalog says of an opcode whose instructions let the script go on in this way. -/
def Foretells (opcode : Opcode) : Flow → Prop
  | .done => opcode.suspends = false ∧ opcode ≠ .fin
  | .suspend _ => opcode.suspends = true
  | .finish => opcode = .fin

theorem foretells_done_of_reserved (h : opcode.reserved = true) : opcode.Foretells .done := by
  rw [Foretells]
  revert h
  cases opcode <;> decide

theorem foretells_done_of_tellsHost (h : opcode.tellsHost = true) : opcode.Foretells .done := by
  rw [Foretells]
  revert h
  cases opcode <;> decide

theorem ne_fin_of_changesDrawing (h : opcode.changesDrawing = true) : opcode ≠ .fin := by
  rintro rfl
  cases h

theorem ne_fin_of_movesCamera (h : opcode.movesCamera = true) : opcode ≠ .fin := by
  rintro rfl
  cases h

end Opcode

namespace Action

variable {i : Instruction} {opcode : Opcode} {action : Action}

theorem foretells_flow (h : ComesFrom i opcode action) : opcode.Foretells action.flow := by
  cases action with
  | skip => exact Opcode.foretells_done_of_reserved h
  | finish => exact h
  | suspend suspension => obtain ⟨rfl, -⟩ | ⟨rfl, -⟩ := h <;> rfl
  | tell | attempt | fullscreen | forceResizeResolution =>
      exact Opcode.foretells_done_of_tellsHost h
  | press => exact Opcode.foretells_done_of_tellsHost h.1
  | awaitButton | awaitDrawing =>
      obtain ⟨rfl, -⟩ := h
      rfl
  | awaitCamera =>
      cases h
      rfl
  | load => obtain ⟨rfl | rfl, -⟩ := h <;> exact ⟨rfl, nofun⟩
  | change | maximize | spriteGroup => exact ⟨h.2.1, Opcode.ne_fin_of_changesDrawing h.1⟩
  | moveCamera => exact ⟨h.2, Opcode.ne_fin_of_movesCamera h.1⟩
  | unload | signal =>
      obtain ⟨rfl, -⟩ := h
      exact ⟨rfl, nofun⟩

theorem ofInstruction_of_reserved (i : Instruction) (h : opcode.reserved = true) :
    ofInstruction i opcode = .ok .skip := by
  cases opcode with
  | loadFont | stringIndentation | stringAlignment | stringScale | string | message | unloadFont
  | x | y | waitTillPosition | showObject | hideObject | velocityX | velocityY | applyForceX
  | applyForceY | stopForceX | stopForceY | changeSpriteGroup | changeDrawing | enableCollision
  | disableCollision => rfl
  | _ => cases h

end Action

namespace Interpreter

variable {σ τ : Type} {host : Host σ} {elapsed : Duration} {s left : Interpreter σ τ}
  {i : Instruction} {opcode : Opcode} {flow : Flow}

theorem foretells_carryOut (hcommand : i.command = .builtin opcode)
    (h : (s.carryOut host i).2 = .ok flow) : opcode.Foretells flow := by
  obtain ⟨action, haction, hcarry⟩ := carryOut_of_builtin hcommand h
  rw [hcarry] at h
  rw [flow_of_perform h]
  exact Action.foretells_flow (Action.ofInstruction_comesFrom haction)

structure Agrees (opcode : Opcode) (session : Session) : Prop where
  suspends : session.pending.isSome = true ↔ opcode.suspends = true
  ends : session.active = false ↔ opcode = .fin

theorem agrees_follow (hactive : s.session.active = true) (hpending : s.session.pending = none)
    (h : opcode.Foretells flow) : Agrees opcode (s.follow flow).session := by
  cases flow with
  | done =>
      obtain ⟨hsuspends, hfin⟩ := h
      constructor
      · change s.session.pending.isSome = true ↔ opcode.suspends = true
        rw [hpending, hsuspends]
        rfl
      · change s.session.active = false ↔ opcode = .fin
        rw [hactive]
        exact iff_of_false nofun hfin
  | suspend p =>
      constructor
      · exact iff_of_true rfl h
      · change s.session.active = false ↔ opcode = .fin
        rw [hactive]
        refine iff_of_false nofun ?_
        rintro rfl
        cases h
  | finish =>
      obtain rfl : opcode = .fin := h
      exact ⟨iff_of_false nofun nofun, iff_of_true rfl rfl⟩

theorem agrees_update (h : CarriesOut host elapsed s i) (hcommand : i.command = .builtin opcode)
    (hok : (s.update host elapsed).2 = none) :
    Agrees opcode (s.update host elapsed).1.session := by
  obtain ⟨-, hupdate, hnone⟩ := update_of_carriesOut h
  obtain ⟨hactive, hpending, -⟩ := carriesOut_iff.mp h
  obtain ⟨flow, hflow⟩ := hnone.mp hok
  have hsession := (carryOut_frame host i (s.settle host elapsed)).1
  have hforetells := foretells_carryOut hcommand hflow
  rw [hupdate, dispatch]
  generalize (s.settle host elapsed).carryOut host i = result at hsession hflow
  obtain ⟨left, outcome⟩ := result
  obtain rfl : outcome = .ok flow := hflow
  have hleft : left.session = (s.settle host elapsed).session := hsession
  refine agrees_follow ?_ ?_ hforetells
  · rw [hleft, active_settle, hactive]
  · rw [hleft, hpending]

/-- Of an instruction that is passed over nothing is left but that the script has moved on. -/
structure Skipped (host : Host σ) (elapsed : Duration) (s : Interpreter σ τ) : Prop where
  /-- Since the first half of the frame, only the index has changed. -/
  update_eq : s.update host elapsed =
    ((s.settle host elapsed).withSession fun session => { session with index := session.index + 1 },
      none)
  /-- The first half of the frame is the tick, unless it is the end of a wait for a place. -/
  settle_eq : (s.animate host elapsed).2.meet s.session.pending = false →
    s.settle host elapsed = (s.animate host elapsed).1
  /-- No service is called, as with any others it would have been the same. -/
  unasked : ∀ other : Host σ, other.tick = host.tick →
    s.update other elapsed = s.update host elapsed
  hooks : s.hooks host (.update elapsed) = []

theorem update_of_reserved (h : CarriesOut host elapsed s i)
    (hcommand : i.command = .builtin opcode) (hreserved : opcode.reserved = true) :
    s.update host elapsed =
      ((s.settle host elapsed).withSession fun session => { session with index := session.index + 1 },
        none) := by
  obtain ⟨hactive, hpending, hi⟩ := carriesOut_iff.mp h
  rw [update_of_active hactive, step_of_ready hpending hi, dispatch,
    carryOut_of_action hcommand (Action.ofInstruction_of_reserved i hreserved)]
  rfl

theorem skipped_update (h : CarriesOut host elapsed s i) (hcommand : i.command = .builtin opcode)
    (hreserved : opcode.reserved = true) : Skipped host elapsed s where
  update_eq := update_of_reserved h hcommand hreserved
  settle_eq := settle_of_not_meet
  unasked other htick := by
    have hsettled := settle_congr htick elapsed s
    have hother : CarriesOut other elapsed s i :=
      carriesOut_iff.mpr (hsettled ▸ carriesOut_iff.mp h)
    rw [update_of_reserved h hcommand hreserved, update_of_reserved hother hcommand hreserved,
      hsettled]
  hooks := by
    apply update_of_builtin h hcommand
    rintro rfl
    cases hreserved

/-- A frame that carries out a built-in instruction without a fault leaves something pending if the
catalog says that the opcode holds the script, and only then. It ends the script if the opcode is
the last one of the catalog, and only then. One that is reserved is passed over. -/
theorem catalog_agrees (host : Host σ) (elapsed : Duration) (s : Interpreter σ τ) (i : Instruction)
    (opcode : Opcode) (hcarries : CarriesOut host elapsed s i)
    (hcommand : i.command = .builtin opcode) (hok : (s.update host elapsed).2 = none) :
    ((s.update host elapsed).1.session.pending.isSome = true ↔ opcode.suspends = true) ∧
      ((s.update host elapsed).1.session.active = false ↔ opcode = .fin) ∧
      (opcode.reserved = true → Skipped host elapsed s) := by
  obtain ⟨hsuspends, hends⟩ := agrees_update hcarries hcommand hok
  exact ⟨hsuspends, hends, skipped_update hcarries hcommand⟩

def atFont : Interpreter Recording Unit :=
  let fresh : Interpreter Recording Unit := { world := .start [] Recording.defaultResolution }
  let script : List Instruction :=
    [{ command := .builtin .cameraWaitTillPosition, uints := [0, 0] },
      { command := .builtin .loadFont, strings := ["serif"] }]
  fresh.run Recording.host [.start script none 0, .update ⟨0⟩]

theorem catalog_agrees_atFont :
    let font : Instruction := { command := .builtin .loadFont, strings := ["serif"] }
    CarriesOut Recording.host ⟨0⟩ atFont font ∧ (atFont.update Recording.host ⟨0⟩).2 = none ∧
      ¬ (atFont.update Recording.host ⟨0⟩).1.session.pending.isSome = true ∧
      Skipped Recording.host ⟨0⟩ atFont := by
  intro font
  have hcarries : CarriesOut Recording.host ⟨0⟩ atFont font :=
    ⟨1, by decide +kernel, by decide +kernel⟩
  have hok : (atFont.update Recording.host ⟨0⟩).2 = none := by decide +kernel
  obtain ⟨hsuspends, -, hskipped⟩ :=
    catalog_agrees Recording.host ⟨0⟩ atFont font .loadFont hcarries rfl hok
  exact ⟨hcarries, hok, fun hsome => absurd (hsuspends.mp hsome) nofun, hskipped rfl⟩

end Interpreter

end Cutscene
