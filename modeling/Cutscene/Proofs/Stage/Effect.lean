import Cutscene.Proofs.Stage.Fault

namespace Cutscene

namespace Drawing

def placed (visual : Visual) (persistent : Option Bool) : Option Drawing → Drawing
  | none => { ofVisual visual with persistent := persistent.getD false }
  | some d => { d.replace visual with persistent := persistent.getD d.persistent }

def stretched (size : Vec) (d : Drawing) : Drawing :=
  { d with size, motion := { d.motion with position := .zero } }

end Drawing

namespace Action

/-- What an action that succeeds makes of the drawings. -/
inductive Redraws {σ : Type} (host : Host σ) (world : σ) (drawings : Named Drawing) :
    Action → Named Drawing → Prop
  | load {name : String} {picture : Picture} {persistent : Option Bool} (visual : Visual) :
      Redraws host world drawings (.load name picture persistent)
        (drawings.insert name (.placed visual persistent (drawings.get? name)))
  | change {name : String} {f : Drawing → Drawing} (h : drawings.has name = true) :
      Redraws host world drawings (.change name f) (drawings.modify name f)
  | await {name : String} {target : Vec} (h : drawings.has name = true) :
      Redraws host world drawings (.awaitDrawing name target)
        (drawings.modify name (Drawing.waitFor target))
  | maximize {name : String} (h : drawings.has name = true) :
      Redraws host world drawings (.maximize name)
        (drawings.modify name (Drawing.stretched (host.resolution world)))
  | spriteGroup {name group : String} (h : drawings.has name = true) :
      Redraws host world drawings (.spriteGroup name group) drawings
  | unload {name : String} (h : drawings.has name = true) :
      Redraws host world drawings (.unload name) (drawings.erase name)
  | other {action : Action} (h : action.drawing? = none) :
      Redraws host world drawings action drawings

theorem Redraws.sorted {σ : Type} {host : Host σ} {world : σ} {drawings left : Named Drawing}
    {action : Action} (h : Redraws host world drawings action left) (hsorted : drawings.Sorted) :
    left.Sorted := by
  cases h with
  | load visual => exact hsorted.insert _ _
  | change | await | maximize => exact hsorted.map _
  | unload => exact hsorted.filter _
  | spriteGroup | other => exact hsorted

/-- What an action makes of its drawing, where the host gives its resolution and the image. -/
def edit (resolution : Vec) (visual : Visual) : Action → Option Drawing → Option Drawing
  | .load _ _ persistent, old => some (.placed visual persistent old)
  | .change _ f, old => old.map f
  | .awaitDrawing _ target, old => old.map (Drawing.waitFor target)
  | .maximize _, old => old.map (Drawing.stretched resolution)
  | .unload _, _ => none
  | _, old => old

def flow : Action → Flow
  | .finish => .finish
  | .suspend suspension => .suspend suspension
  | .awaitButton button => .suspend (.button button)
  | .awaitDrawing name _ => .suspend (.drawingPosition name)
  | .awaitCamera _ => .suspend .cameraPosition
  | _ => .done

theorem loadsDrawing_of_edit {i : Instruction} {opcode : Opcode} {action : Action}
    {resolution : Vec} {visual : Visual} {d : Drawing} (hfrom : ComesFrom i opcode action)
    (h : action.edit resolution visual none = some d) : opcode.loadsDrawing = true := by
  cases action with
  | load => obtain ⟨rfl | rfl, -⟩ := hfrom <;> rfl
  | change | awaitDrawing | maximize | spriteGroup | unload | skip | finish | suspend | tell
  | attempt | press | awaitButton | moveCamera | awaitCamera | fullscreen | forceResizeResolution
  | signal => cases h

theorem eq_unloadDrawing_of_edit {i : Instruction} {opcode : Opcode} {action : Action}
    {resolution : Vec} {visual : Visual} {d : Drawing} (hfrom : ComesFrom i opcode action)
    (h : action.edit resolution visual (some d) = none) : opcode = .unloadDrawing := by
  cases action with
  | unload => exact hfrom.1
  | change | awaitDrawing | maximize | spriteGroup | load | skip | finish | suspend | tell
  | attempt | press | awaitButton | moveCamera | awaitCamera | fullscreen | forceResizeResolution
  | signal => cases h

theorem get?_of_own {drawings left : Named Drawing} {own : String}
    {f : Option Drawing → Option Drawing} (hown : left.get? own = f (drawings.get? own))
    (hothers : ∀ name, name ≠ own → left.get? name = drawings.get? name) (name : String) :
    left.get? name =
      if some own = some name then f (drawings.get? name) else drawings.get? name := by
  by_cases hname : own = name
  · rw [if_pos (congrArg some hname), ← hname, hown]
  · rw [if_neg fun h => hname (Option.some.inj h), hothers name (Ne.symm hname)]

/-- No drawing but its own is changed by an action. -/
theorem Redraws.get? {σ : Type} {host : Host σ} {world : σ} {drawings left : Named Drawing}
    {action : Action} (h : Redraws host world drawings action left) :
    ∃ visual, ∀ name, left.get? name =
      if action.drawing? = some name then
        action.edit (host.resolution world) visual (drawings.get? name)
      else drawings.get? name := by
  cases h with
  | load visual =>
      refine ⟨visual, get?_of_own ?_ fun name hname => ?_⟩
      · rw [Named.get?_insert, if_pos rfl]
        rfl
      · rw [Named.get?_insert, if_neg hname]
  | change | await | maximize =>
      refine ⟨{ label := "", size := .zero }, get?_of_own ?_ fun name hname => ?_⟩
      · rw [Named.get?_modify, if_pos rfl]
        rfl
      · rw [Named.get?_modify, if_neg hname]
  | unload =>
      refine ⟨{ label := "", size := .zero }, get?_of_own ?_ fun name hname => ?_⟩
      · rw [Named.get?_erase, if_pos rfl]
        rfl
      · rw [Named.get?_erase, if_neg hname]
  | spriteGroup => exact ⟨{ label := "", size := .zero }, get?_of_own rfl fun _ _ => rfl⟩
  | other hnone =>
      refine ⟨{ label := "", size := .zero }, fun name => ?_⟩
      rw [hnone, if_neg nofun]

end Action

namespace Interpreter

variable {σ τ : Type} {host : Host σ} {s : Interpreter σ τ} {i : Instruction} {action : Action}
  {flow : Flow}

theorem drawings_place (name : String) (visual : Visual) (persistent : Option Bool)
    (s : Interpreter σ τ) :
    (s.place name visual persistent).drawings =
      s.drawings.insert name (.placed visual persistent (s.drawings.get? name)) := by
  rw [place]
  cases s.drawings.get? name <;> rfl

theorem drawings_changeDrawing {name : String} {f : Drawing → Drawing} {answer : Flow}
    (h : (s.changeDrawing name f answer).2 = .ok flow) :
    s.drawings.has name = true ∧
      (s.changeDrawing name f answer).1.drawings = s.drawings.modify name f := by
  rw [changeDrawing] at h ⊢
  split at h
  · rename_i hhas
    rw [if_pos hhas]
    exact ⟨hhas, rfl⟩
  · cases h

theorem perform_redraws (h : (s.perform host i action).2 = .ok flow) :
    action.Redraws host s.world s.drawings (s.perform host i action).1.drawings := by
  cases action with
  | skip | finish | suspend | tell | moveCamera | awaitCamera | forceResizeResolution =>
      exact .other rfl
  | attempt | press | awaitButton | fullscreen =>
      simp only [perform]
      split <;> exact .other rfl
  | signal =>
      simp only [perform, sendSignal]
      split <;> exact .other rfl
  | load name picture persistent =>
      cases picture with
      | image path =>
          simp only [perform, load] at h ⊢
          split at h
          · cases h
          · rw [drawings_place]
            exact .load _
      | solid color size =>
          simp only [perform, load]
          rw [drawings_place]
          exact .load _
  | change name f =>
      obtain ⟨hhas, hleft⟩ := drawings_changeDrawing h
      simp only [perform, hleft]
      exact .change hhas
  | awaitDrawing name target =>
      obtain ⟨hhas, hleft⟩ := drawings_changeDrawing h
      simp only [perform, hleft]
      exact .await hhas
  | maximize name =>
      obtain ⟨hhas, hleft⟩ := drawings_changeDrawing h
      simp only [perform, hleft]
      exact .maximize hhas
  | spriteGroup name group =>
      simp only [perform, changeGroup] at h ⊢
      cases hdrawing : s.drawings.get? name with
      | none =>
          rw [hdrawing] at h
          cases h
      | some d =>
          have hhas : s.drawings.has name = true := by
            rw [Named.has_eq_isSome, hdrawing]
            rfl
          exact .spriteGroup hhas
  | unload name =>
      simp only [perform] at h ⊢
      split at h
      · rename_i hhas
        rw [if_pos hhas]
        exact .unload hhas
      · cases h

theorem flow_of_perform (h : (s.perform host i action).2 = .ok flow) : flow = action.flow := by
  cases action with
  | skip | finish | suspend | tell | moveCamera | awaitCamera | forceResizeResolution | fullscreen
  | signal =>
      cases h
      rfl
  | attempt command event =>
      simp only [perform] at h
      split at h
      · cases h
      · cases h
        rfl
  | press | awaitButton | unload =>
      simp only [perform] at h
      split at h
      · cases h
        rfl
      · cases h
  | load name picture persistent =>
      cases picture with
      | image path =>
          simp only [perform, load] at h
          split at h
          · cases h
          · cases h
            rfl
      | solid color size =>
          cases h
          rfl
  | change | awaitDrawing | maximize =>
      simp only [perform, changeDrawing] at h
      split at h
      · cases h
        rfl
      · cases h
  | spriteGroup name group =>
      simp only [perform, changeGroup] at h
      split at h
      · cases h
      · cases h
        rfl

theorem eq_finish_of_perform (h : (s.perform host i action).2 = .ok .finish) :
    action = .finish := by
  have hflow := flow_of_perform h
  cases action with
  | finish => rfl
  | _ => cases hflow

theorem carryOut_of_custom {name : String} (hcommand : i.command = .custom name) :
    (s.carryOut host i).1 = (s.callHandler host fun handler => handler.interpret name i).1 ∧
      (s.carryOut host i).2 =
        match (s.callHandler host fun handler => handler.interpret name i).2 with
        | .done => .ok .done
        | .pending => .ok (.suspend .custom) := by
  rw [carryOut, hcommand]
  simp only
  generalize s.callHandler host (fun handler => handler.interpret name i) = result
  obtain ⟨left, _ | _⟩ := result <;> exact ⟨rfl, rfl⟩

theorem carryOut_of_action {opcode : Opcode} (hcommand : i.command = .builtin opcode)
    (haction : Action.ofInstruction i opcode = .ok action) :
    s.carryOut host i = s.perform host i action := by
  rw [carryOut, hcommand]
  simp only [haction]

theorem carryOut_of_builtin {opcode : Opcode} (hcommand : i.command = .builtin opcode)
    (h : (s.carryOut host i).2 = .ok flow) :
    ∃ action, Action.ofInstruction i opcode = .ok action ∧
      s.carryOut host i = s.perform host i action := by
  cases haction : Action.ofInstruction i opcode with
  | error parameter =>
      rw [carryOut, hcommand] at h
      simp only [haction] at h
      cases h
  | ok action => exact ⟨action, rfl, carryOut_of_action hcommand haction⟩

end Interpreter

end Cutscene
