import Cutscene.Proofs.Stage.Effect
import Cutscene.Proofs.Stage.Progress

namespace Cutscene

variable {σ τ : Type}

/-- The world has come about by calls to the services of the host, and by images, all of them `p`, that
were put into groups. -/
inductive Host.Serves (host : Host σ) (p : Visual → Prop) (world : σ) : σ → Prop
  | refl : Serves host p world world
  | tell {later : σ} (h : Serves host p world later) (event : Event) :
      Serves host p world (host.tell event later)
  | attempt {later : σ} (h : Serves host p world later) (event : Event) :
      Serves host p world (host.attempt event later).2
  | regroup {later : σ} (h : Serves host p world later) (group : String) {visual : Visual}
      (hp : p visual) : Serves host p world (host.regroup group visual later).2

namespace Host.Serves

variable {host : Host σ} {p : Visual → Prop} {world later last : σ}

theorem of_eq (h : later = world) : host.Serves p world later := h ▸ .refl

theorem trans (h : host.Serves p world later) (h' : host.Serves p later last) :
    host.Serves p world last := by
  induction h' with
  | refl => exact h
  | tell _ event ih => exact ih.tell event
  | attempt _ event ih => exact ih.attempt event
  | regroup _ group hp ih => exact ih.regroup group hp

theorem tellAll (events : List Event) (world : σ) :
    host.Serves p world (host.tellAll events world) := by
  induction events generalizing world with
  | nil => exact .refl
  | cons event events ih =>
      have hfirst : host.Serves p world (host.tell event world) := .tell .refl event
      exact hfirst.trans (ih _)

theorem keeps {α : Type} {f : σ → α} (h : host.Serves p world later)
    (htell : ∀ event world, f (host.tell event world) = f world)
    (hattempt : ∀ event world, f (host.attempt event world).2 = f world)
    (hregroup : ∀ group visual world, f (host.regroup group visual world).2 = f world) :
    f later = f world := by
  induction h with
  | refl => rfl
  | tell _ event ih => exact (htell event _).trans ih
  | attempt _ event ih => exact (hattempt event _).trans ih
  | regroup _ group _ ih => exact (hregroup group _ _).trans ih

end Host.Serves

namespace Interpreter

variable {p : Visual → Prop} (host : Host σ) (elapsed : Duration) {i : Instruction}
  (s : Interpreter σ τ)

theorem serves_callHandler (hook : Handler τ → τ → Answer τ) :
    host.Serves p s.world (s.callHandler host hook).1.world := by
  rw [callHandler]
  cases s.handler with
  | none => exact .refl
  | some entry => exact .tellAll _ _

theorem serves_attempt {event : Event} {result : Option String} {world : σ}
    (h : host.attempt event s.world = (result, world)) : host.Serves p s.world world := by
  have hserves : host.Serves p s.world (host.attempt event s.world).2 := .attempt .refl event
  rwa [h] at hserves

theorem serves_perform {action : Action}
    (hp : ∀ name d, action.drawing? = some name → s.drawings.get? name = some d → p d.visual) :
    host.Serves p s.world (s.perform host i action).1.world := by
  cases action with
  | skip | finish | suspend | moveCamera | awaitCamera => exact .refl
  | tell event => exact .tell .refl event
  | forceResizeResolution enabled => exact .tell .refl _
  | attempt command event =>
      simp only [perform]
      split <;> exact serves_attempt host s ‹_›
  | press button event =>
      simp only [perform]
      split
      · exact .tell .refl event
      · exact .refl
  | awaitButton | unload =>
      simp only [perform]
      split <;> exact .refl
  | change | awaitDrawing | maximize =>
      simp only [perform, changeDrawing]
      split <;> exact .refl
  | load name picture persistent =>
      cases picture with
      | image path =>
          simp only [perform, load]
          split <;> exact serves_attempt host s ‹_›
      | solid color size => exact .tell .refl _
  | spriteGroup name group =>
      simp only [perform, changeGroup]
      split
      · exact .refl
      · exact .regroup .refl group (hp name _ rfl ‹_›)
  | fullscreen enabled =>
      simp only [perform]
      split
      · exact .refl
      · exact .tell .refl _
  | signal group =>
      simp only [perform, sendSignal]
      split
      · exact .refl
      · exact .tellAll _ _

theorem serves_carryOut
    (hp : ∀ opcode action name d, i.command = .builtin opcode →
      Action.ofInstruction i opcode = .ok action → action.drawing? = some name →
        s.drawings.get? name = some d → p d.visual) :
    host.Serves p s.world (s.carryOut host i).1.world := by
  cases hcommand : i.command with
  | custom name =>
      rw [(carryOut_of_custom hcommand).1]
      exact serves_callHandler host s _
  | builtin opcode =>
      cases haction : Action.ofInstruction i opcode with
      | error parameter =>
          refine .of_eq ?_
          rw [carryOut, hcommand]
          simp only [haction]
      | ok action =>
          rw [carryOut_of_action hcommand haction]
          exact serves_perform host s fun name d => hp opcode action name d hcommand haction

theorem serves_poll (suspension : Suspension) :
    host.Serves p s.world (s.poll host elapsed suspension).1.world := by
  cases suspension with
  | wait | button | anyButton | drawingPosition | cameraPosition => exact .refl
  | custom =>
      rw [poll]
      cases s.session.current? with
      | none => exact .refl
      | some i => exact serves_callHandler host s _

/-- In the second half of a frame nothing but services changes the world. -/
theorem serves_step
    (hp : s.session.pending = none → ∀ i opcode action name d, s.session.current? = some i →
      i.command = .builtin opcode → Action.ofInstruction i opcode = .ok action →
        action.drawing? = some name → s.drawings.get? name = some d → p d.visual) :
    host.Serves p s.world (conclude (s.step host elapsed)).world := by
  rw [step]
  cases hpending : s.session.pending with
  | some suspension =>
      have hpolled := serves_poll (p := p) host elapsed s suspension
      simp only
      generalize s.poll host elapsed suspension = result at hpolled ⊢
      obtain ⟨left, fault | done⟩ := result
      · exact hpolled
      · cases done with
        | false => exact hpolled
        | true =>
            refine hpolled.trans (.of_eq ?_)
            change left.complete.world = left.world
            rw [complete]
            cases left.session.pending <;> rfl
  | none =>
      cases hi : s.session.current? with
      | none => exact .refl
      | some i =>
          have hcarried := serves_carryOut host s fun opcode action name d =>
            hp hpending i opcode action name d hi
          simp only [dispatch]
          generalize s.carryOut host i = result at hcarried ⊢
          obtain ⟨left, fault | flow⟩ := result
          · exact hcarried
          · cases flow <;> exact hcarried

end Interpreter

end Cutscene
