import Cutscene.Interpreter
import Cutscene.Stage.Recording

namespace Cutscene

variable {σ τ : Type}

/-- What the game and its player ask of an interpreter. -/
inductive Call (σ τ : Type) where
  | start (script : List Instruction) (handler : Option (Handler τ × τ)) (index : Nat)
  | startFile (bytes : List UInt8) (handler : Option (Handler τ × τ)) (index : Nat)
  | update (elapsed : Duration)
  | draw
  | finish
  | push (button : String)
  | release (button : String)
  | fire (button : String)
  /-- Something happens to the host or to the handler that no call has to do with. -/
  | outside (world : σ → σ) (state : τ → τ)

/-- Time does nothing to the images of this host. -/
def Host.Still (host : Host σ) : Prop :=
  ∀ elapsed visual world, host.tick elapsed visual world = world

theorem Recording.still : Recording.host.Still := fun _ _ _ => rfl

namespace Interpreter

/-- A file that cannot be loaded leaves everything as it is, and only a push of a button is
heeded. -/
def answer (host : Host σ) (s : Interpreter σ τ) : Call σ τ → Interpreter σ τ
  | .start script handler index => s.start script handler index
  | .startFile bytes handler index =>
      match s.startFile bytes handler index with
      | .ok started => started
      | .error _ => s
  | .update elapsed => (s.update host elapsed).1
  | .draw => s.draw host
  | .finish => s.finish
  | .push button => s.push button
  | .release _ | .fire _ => s
  | .outside world state =>
      { s with
        world := world s.world
        handler := s.handler.map fun (handler, t) => (handler, state t) }

/-- The states that an interpreter for this host gets into, whatever it is asked. -/
inductive Reachable (host : Host σ) : Interpreter σ τ → Prop
  | fresh (world : σ) : Reachable host { world }
  | answer {s : Interpreter σ τ} (h : Reachable host s) (call : Call σ τ) :
      Reachable host (s.answer host call)

/-- The world once all images have heard that time has passed, in the order of the names. -/
def ticked (host : Host σ) (elapsed : Duration) (drawings : Named Drawing) (world : σ) : σ :=
  drawings.foldl (fun world entry => host.tick elapsed entry.2.visual world) world

theorem ticked_keeps {α : Type} {host : Host σ} {elapsed : Duration} {f : σ → α}
    (h : ∀ visual world, f (host.tick elapsed visual world) = f world) (drawings : Named Drawing)
    (world : σ) : f (ticked host elapsed drawings world) = f world := by
  induction drawings generalizing world with
  | nil => rfl
  | cons entry rest ih => exact (ih _).trans (h entry.2.visual world)

theorem ticked_of_still {host : Host σ} (h : host.Still) (elapsed : Duration)
    (drawings : Named Drawing) (world : σ) : ticked host elapsed drawings world = world :=
  ticked_keeps (f := id) (h elapsed) drawings world

theorem updateAll_eq (host : Host σ) (elapsed : Duration) (drawings : Named Drawing) (world : σ) :
    updateAll host elapsed drawings world =
      (drawings.map fun entry => (entry.1, entry.2.advance elapsed),
        ticked host elapsed drawings world) := by
  induction drawings generalizing world with
  | nil => rfl
  | cons entry rest ih =>
      rw [updateAll, Drawing.update]
      simp only [ih]
      rfl

/-- In a tick the drawings move on their own, and the world has to do with their images only. -/
theorem animate_eq (host : Host σ) (elapsed : Duration) (s : Interpreter σ τ) :
    s.animate host elapsed =
      ({ s with
          world := ticked host elapsed s.drawings s.world
          drawings := s.drawings.map fun entry => (entry.1, (entry.2.advance elapsed).1)
          camera := (s.camera.advance elapsed.singleSeconds).1 },
        ⟨(s.drawings.filter fun entry => (entry.2.advance elapsed).2).map (·.1),
          (s.camera.advance elapsed.singleSeconds).2⟩) := by
  simp [animate, updateAll_eq, List.map_map, List.filter_map, Function.comp_def]

theorem world_animate {host : Host σ} (h : host.Still) (elapsed : Duration) (s : Interpreter σ τ) :
    (s.animate host elapsed).1.world = s.world := by
  rw [animate_eq, ticked_of_still h]

theorem drawings_animate (host : Host σ) (elapsed : Duration) (s : Interpreter σ τ) :
    (s.animate host elapsed).1.drawings =
      s.drawings.map fun entry => (entry.1, (entry.2.advance elapsed).1) := by
  rw [animate_eq]

theorem animate_congr {host other : Host σ} (h : other.tick = host.tick) (elapsed : Duration)
    (s : Interpreter σ τ) : s.animate other elapsed = s.animate host elapsed := by
  have hticked : ticked other elapsed s.drawings s.world = ticked host elapsed s.drawings s.world := by
    rw [ticked, ticked, h]
  rw [animate_eq, animate_eq, hticked]

/-- The first half of a frame: everything moves, and a wait for a place that has been reached is
over. -/
def settle (host : Host σ) (elapsed : Duration) (s : Interpreter σ τ) : Interpreter σ τ :=
  if (s.animate host elapsed).2.meet s.session.pending then (s.animate host elapsed).1.complete
  else (s.animate host elapsed).1

theorem settle_congr {host other : Host σ} (h : other.tick = host.tick) (elapsed : Duration)
    (s : Interpreter σ τ) : s.settle other elapsed = s.settle host elapsed := by
  rw [settle, settle, animate_congr h]

theorem update_of_active {host : Host σ} {elapsed : Duration} {s : Interpreter σ τ}
    (h : s.session.active = true) :
    s.update host elapsed =
      match (s.settle host elapsed).step host elapsed with
      | (s, .ok ()) => (s, none)
      | (s, .error fault) => (s.finish, some (.instruction s.session.index fault)) := by
  have hactive : (s.animate host elapsed).1.session.active = true := h
  exact if_pos hactive

theorem update_of_inactive {host : Host σ} {elapsed : Duration} {s : Interpreter σ τ}
    (h : s.session.active = false) : s.update host elapsed = ((s.animate host elapsed).1, none) := by
  have hactive : ¬ (s.animate host elapsed).1.session.active = true := by
    change ¬ s.session.active = true
    rw [h]
    exact Bool.false_ne_true
  exact if_neg hactive

end Interpreter

end Cutscene
