import Cutscene.Proofs.Stage.Effect
import Cutscene.Proofs.Stage.Progress
import Cutscene.Stage.Recording

namespace Cutscene

namespace Event

def press? : Event → Option String
  | .buttonPressed button => some button
  | _ => none

end Event

namespace Recording

variable {p : Recording → Event → Prop} {r r' r'' : Recording} {events events' : List Event}

theorem events_tell (event : Event) (r : Recording) :
    (r.tell event).events = r.events ++ [event] := by
  have hheed : (r.heed event).recent = r.recent := by cases event <;> rfl
  change (event :: (r.heed event).recent).reverse = r.recent.reverse ++ [event]
  rw [hheed, List.reverse_cons]

def Turns (r : Recording) : Event → Prop
  | .fullscreen enabled => enabled ≠ r.fullscreen
  | _ => True

/-- The host has been told these events, each of which was in order at the time. -/
inductive Told (p : Recording → Event → Prop) (r : Recording) : List Event → Recording → Prop
  | refl : Told p r [] r
  | tell {events : List Event} {r' : Recording} {event : Event} (h : Told p r events r')
      (hevent : p r' event) : Told p r (events ++ [event]) (r'.tell event)

namespace Told

theorem trans (h : Told p r events r') (h' : Told p r' events' r'') :
    Told p r (events ++ events') r'' := by
  induction h' with
  | refl => rwa [List.append_nil]
  | tell _ hevent ih =>
      rw [← List.append_assoc]
      exact ih.tell hevent

theorem tellAll (h : ∀ r, ∀ event ∈ events, p r event) (r : Recording) :
    Told p r events (host.tellAll events r) := by
  induction events generalizing r with
  | nil => exact .refl
  | cons event events ih =>
      have hfirst : Told p r [event] (r.tell event) :=
        Told.refl.tell (h r event List.mem_cons_self)
      exact hfirst.trans (ih (fun r e he => h r e (List.mem_cons_of_mem event he)) (r.tell event))

theorem events_eq (h : Told p r events r') : r'.events = r.events ++ events := by
  induction h with
  | refl => exact (List.append_nil _).symm
  | tell _ _ ih => rw [events_tell, ih, List.append_assoc]

theorem forall_mem {q : Event → Prop} (h : Told p r events r')
    (hq : ∀ r event, p r event → q event) : ∀ event ∈ events, q event := by
  induction h with
  | refl => exact nofun
  | tell _ hevent ih =>
      intro event hmem
      rcases List.mem_append.mp hmem with hmem | hmem
      · exact ih event hmem
      · rw [List.mem_singleton.mp hmem]
        exact hq _ _ hevent

end Told

end Recording

/-- The hooks of the handler tell of nothing but what is in order. -/
structure Handler.InOrder {τ : Type} (p : Recording → Event → Prop) (handler : Handler τ) :
    Prop where
  interpret : ∀ name i state, ∀ event ∈ (handler.interpret name i state).events, ∀ r, p r event
  update : ∀ name i elapsed state,
    ∀ event ∈ (handler.update name i elapsed state).events, ∀ r, p r event
  signal : ∀ group i state, ∀ event ∈ (handler.signal group i state).1, ∀ r, p r event

namespace Action

inductive Tells : Action → Recording → Event → Prop
  | tell (event : Event) (r : Recording) : Tells (.tell event) r event
  | attempt (command : String) (event : Event) (r : Recording) :
      Tells (.attempt command event) r event
  | press (button : String) (event : Event) (r : Recording) : Tells (.press button event) r event
  | image (name path : String) (persistent : Option Bool) (r : Recording) :
      Tells (.load name (.image path) persistent) r (.loadImage path)
  | solid (name : String) (color : Color) (size : Vec) (persistent : Option Bool) (r : Recording) :
      Tells (.load name (.solid color size) persistent) r (.solidColor color size)
  | spriteGroup (name group label : String) (r : Recording) :
      Tells (.spriteGroup name group) r (.spriteGroup label group)
  | fullscreen {enabled : Bool} (wanted : Option Bool) {r : Recording}
      (h : enabled ≠ r.fullscreen) : Tells (.fullscreen wanted) r (.fullscreen enabled)
  | forceResizeResolution (enabled : Bool) (wanted : Option Bool) (r : Recording) :
      Tells (.forceResizeResolution wanted) r (.forceResizeResolution enabled)

variable {i : Instruction} {opcode : Opcode} {action : Action}

/-- No instruction makes the player press a button, and none asks for a full screen that is there
already. -/
theorem inOrder_of_tells {r : Recording} {event : Event}
    (h : ofInstruction i opcode = .ok action) (htells : action.Tells r event) :
    event.press? = none ∧ r.Turns event := by
  cases opcode with
  | fullscreen =>
      cases h
      cases htells with
      | fullscreen _ hturns => exact ⟨rfl, hturns⟩
  | fin | waitForAnyButton | blockAllInputs | allowAllInputs | exitGame
  | forceResizeResolution | loadFont | stringIndentation | stringAlignment | stringScale | string
  | message | unloadFont | x | y | waitTillPosition | showObject | hideObject | velocityX
  | velocityY | applyForceX | applyForceY | stopForceX | stopForceY | changeSpriteGroup
  | changeDrawing | enableCollision | disableCollision =>
      cases h
      cases htells <;> exact ⟨rfl, trivial⟩
  | wait | unloadSound | playSound | resumeSound | pauseSound | stopSound | soundPosition
  | drawingPersistence | drawingIgnoreCamera | drawingRotation | showDrawing | hideDrawing
  | maximizeDrawing | unloadDrawing | waitForButton | buttonDown | buttonUp | pushButton
  | blockInput | allowInput | signal | cameraX | cameraY | cameraVelocityX | cameraVelocityY
  | cameraAccelerationX | cameraAccelerationY | cameraWaitTillPosition | changeScene | changeSize
  | changeResolution | windowTitle =>
      obtain ⟨first, -, h⟩ := bind_eq_ok h
      cases h
      cases htells <;> exact ⟨rfl, trivial⟩
  | loadSound | playIndependentSound | soundVolume | loadDrawing | drawingX | drawingY
  | drawingWidth | drawingHeight | drawingVelocityX | drawingVelocityY | drawingAccelerationX
  | drawingAccelerationY | drawingWaitTillPosition | drawingLayerDepth | drawingScaleX
  | drawingScaleY | drawingSpriteEffects | drawingColor | fadeDrawing | unfadeDrawing
  | changeDrawingSpriteGroup =>
      obtain ⟨first, -, h⟩ := bind_eq_ok h
      obtain ⟨second, -, h⟩ := bind_eq_ok h
      cases h
      cases htells <;> exact ⟨rfl, trivial⟩
  | drawingOrigin =>
      obtain ⟨name, -, h⟩ := bind_eq_ok h
      split at h
      · cases h
        cases htells
      · obtain ⟨origin, -, h⟩ := bind_eq_ok h
        cases h
        cases htells
  | loadImageFromColor =>
      obtain ⟨name, -, h⟩ := bind_eq_ok h
      obtain ⟨width, -, h⟩ := bind_eq_ok h
      obtain ⟨height, -, h⟩ := bind_eq_ok h
      obtain ⟨color, -, h⟩ := bind_eq_ok h
      cases h
      cases htells
      exact ⟨rfl, trivial⟩

end Action

def ActionsInOrder (p : Recording → Event → Prop) : Prop :=
  ∀ i opcode action, Action.ofInstruction i opcode = .ok action →
    ∀ r event, action.Tells r event → p r event

namespace Interpreter

variable {τ : Type} {p : Recording → Event → Prop} {s s' s'' : Interpreter Recording τ}
  {i : Instruction}

def Guarded (p : Recording → Event → Prop) (s : Interpreter Recording τ) : Prop :=
  ∀ handler state, s.handler = some (handler, state) → handler.InOrder p

/-- From the one state to the other the host has been told what is in order, and the handler is
still the same. -/
structure Reports (p : Recording → Event → Prop) (s s' : Interpreter Recording τ) : Prop where
  world : ∃ events, Recording.Told p s.world events s'.world
  handler : s'.handler.map Prod.fst = s.handler.map Prod.fst

namespace Reports

theorem of_eq (hworld : s'.world = s.world) (hhandler : s'.handler = s.handler) :
    Reports p s s' := by
  refine ⟨⟨[], ?_⟩, by rw [hhandler]⟩
  rw [hworld]
  exact .refl

theorem refl (s : Interpreter Recording τ) : Reports p s s := of_eq rfl rfl

theorem trans (h : Reports p s s') (h' : Reports p s' s'') : Reports p s s'' := by
  obtain ⟨events, hevents⟩ := h.world
  obtain ⟨events', hevents'⟩ := h'.world
  exact ⟨⟨events ++ events', hevents.trans hevents'⟩, h'.handler.trans h.handler⟩

theorem of_tellAll {events : List Event} (hevents : ∀ event ∈ events, ∀ r, p r event)
    (hworld : s'.world = Recording.host.tellAll events s.world)
    (hhandler : s'.handler.map Prod.fst = s.handler.map Prod.fst) : Reports p s s' := by
  refine ⟨⟨events, ?_⟩, hhandler⟩
  rw [hworld]
  exact .tellAll (fun r event hevent => hevents event hevent r) s.world

theorem tell {event : Event} (hevent : p s.world event)
    (hworld : s'.world = s.world.tell event) (hhandler : s'.handler = s.handler) :
    Reports p s s' := by
  refine ⟨⟨[event], ?_⟩, by rw [hhandler]⟩
  rw [hworld]
  exact Recording.Told.refl.tell hevent

theorem guarded (h : Reports p s s') (hguarded : s.Guarded p) : s'.Guarded p := by
  intro handler state hhandler
  have hsame := h.handler
  rw [hhandler] at hsame
  cases hbefore : s.handler with
  | none =>
      rw [hbefore] at hsame
      cases hsame
  | some entry =>
      obtain ⟨before, earlier⟩ := entry
      rw [hbefore] at hsame
      cases hsame
      exact hguarded handler earlier hbefore

end Reports

theorem reports_callHandler {hook : Handler τ → τ → Answer τ}
    (hhook : ∀ handler state, s.handler = some (handler, state) →
      ∀ event ∈ (hook handler state).events, ∀ r, p r event) :
    Reports p s (s.callHandler Recording.host hook).1 := by
  rw [callHandler]
  cases hhandler : s.handler with
  | none => exact .refl s
  | some entry =>
      obtain ⟨handler, state⟩ := entry
      refine .of_tellAll (hhook handler state hhandler) rfl ?_
      rw [hhandler]
      rfl

theorem reports_sendSignal (h : s.Guarded p) (group : String) (i : Instruction) :
    Reports p s (s.sendSignal Recording.host group i) := by
  rw [sendSignal]
  cases hhandler : s.handler with
  | none => exact .refl s
  | some entry =>
      obtain ⟨handler, state⟩ := entry
      refine .of_tellAll ((h handler state hhandler).signal group i state) rfl ?_
      rw [hhandler]
      rfl

theorem reports_perform (h : s.Guarded p) {action : Action}
    (htells : ∀ r event, action.Tells r event → p r event) :
    Reports p s (s.perform Recording.host i action).1 := by
  cases action with
  | skip | finish | suspend | moveCamera | awaitCamera => exact .of_eq rfl rfl
  | tell event => exact .tell (htells _ _ (.tell ..)) rfl rfl
  | attempt command event => exact .tell (htells _ _ (.attempt ..)) rfl rfl
  | press button event =>
      simp only [perform]
      split
      · exact .tell (htells _ _ (.press ..)) rfl rfl
      · exact .refl s
  | awaitButton | unload =>
      simp only [perform]
      split <;> exact .of_eq rfl rfl
  | change | awaitDrawing | maximize =>
      simp only [perform, changeDrawing]
      split <;> exact .of_eq rfl rfl
  | load name picture persistent =>
      cases picture with
      | image path => exact .tell (htells _ _ (.image ..)) rfl rfl
      | solid color size => exact .tell (htells _ _ (.solid ..)) rfl rfl
  | spriteGroup name group =>
      simp only [perform, changeGroup]
      split
      · exact .refl s
      · exact .tell (htells _ _ (.spriteGroup ..)) rfl rfl
  | fullscreen enabled =>
      simp only [perform]
      split
      · exact .refl s
      · rename_i hchanged
        exact .tell (htells _ _ (.fullscreen _ hchanged)) rfl rfl
  | forceResizeResolution enabled =>
      exact .tell (htells _ _ (.forceResizeResolution ..)) rfl rfl
  | signal group => exact reports_sendSignal h group i

theorem reports_carryOut (hp : ActionsInOrder p) (h : s.Guarded p) (i : Instruction) :
    Reports p s (s.carryOut Recording.host i).1 := by
  cases hcommand : i.command with
  | custom name =>
      rw [(carryOut_of_custom hcommand).1]
      exact reports_callHandler fun handler state hhandler =>
        (h handler state hhandler).interpret name i state
  | builtin opcode =>
      cases haction : Action.ofInstruction i opcode with
      | error parameter =>
          have hleft : (s.carryOut Recording.host i).1 = s := by
            rw [carryOut, hcommand]
            simp only [haction]
          rw [hleft]
          exact .refl s
      | ok action =>
          rw [carryOut_of_action hcommand haction]
          exact reports_perform h (hp i opcode action haction)

theorem reports_poll (h : s.Guarded p) (elapsed : Duration) (suspension : Suspension) :
    Reports p s (s.poll Recording.host elapsed suspension).1 := by
  cases suspension with
  | wait | button | anyButton | drawingPosition | cameraPosition => exact .of_eq rfl rfl
  | custom =>
      rw [poll]
      cases s.session.current? with
      | none => exact .refl s
      | some i =>
          exact reports_callHandler fun handler state hhandler =>
            (h handler state hhandler).update i.command.name i elapsed state

theorem reports_complete (s : Interpreter Recording τ) : Reports p s s.complete := by
  rw [complete]
  cases s.session.pending <;> exact .of_eq rfl rfl

theorem reports_step (hp : ActionsInOrder p) (h : s.Guarded p) (elapsed : Duration) :
    Reports p s (conclude (s.step Recording.host elapsed)) := by
  rw [step]
  cases s.session.pending with
  | some suspension =>
      have hpolled := reports_poll h elapsed suspension
      simp only
      generalize s.poll Recording.host elapsed suspension = result at hpolled ⊢
      obtain ⟨left, fault | done⟩ := result
      · exact hpolled.trans (.of_eq rfl rfl)
      · cases done with
        | false => exact hpolled
        | true => exact hpolled.trans (reports_complete left)
  | none =>
      cases s.session.current? with
      | none => exact .of_eq rfl rfl
      | some i =>
          have hcarried := reports_carryOut hp h i
          simp only [dispatch]
          generalize s.carryOut Recording.host i = result at hcarried ⊢
          obtain ⟨left, fault | flow⟩ := result
          · exact hcarried.trans (.of_eq rfl rfl)
          · cases flow <;> exact hcarried.trans (.of_eq rfl rfl)

theorem reports_update (hp : ActionsInOrder p) (h : s.Guarded p) (elapsed : Duration) :
    Reports p s (s.update Recording.host elapsed).1 := by
  have hstill : ticked Recording.host elapsed s.drawings s.world = s.world :=
    ticked_of_still Recording.still elapsed s.drawings s.world
  cases hactive : s.session.active with
  | false =>
      rw [update_of_inactive hactive, animate_eq]
      exact .of_eq hstill rfl
  | true =>
      obtain ⟨hworld, hhandler, -⟩ := settle_frame Recording.host elapsed s
      have hsettled : Reports p s (s.settle Recording.host elapsed) :=
        .of_eq (hworld.trans hstill) hhandler
      rw [update_fst_of_active hactive]
      exact hsettled.trans (reports_step hp (hsettled.guarded h) elapsed)

theorem reports_draw (hp : ∀ label params r, p r (.draw label params))
    (s : Interpreter Recording τ) : Reports p s (s.draw Recording.host) := by
  refine .of_tellAll (fun event hevent r => ?_) rfl rfl
  obtain ⟨⟨name, d⟩, -, rfl⟩ := List.mem_map.mp hevent
  exact hp _ _ r

theorem push_frame (button : String) (s : Interpreter Recording τ) :
    (s.push button).world = s.world ∧ (s.push button).handler = s.handler := by
  rw [push]
  split
  · rw [complete]
    cases s.session.pending <;> exact ⟨rfl, rfl⟩
  · exact ⟨rfl, rfl⟩

end Interpreter

end Cutscene
