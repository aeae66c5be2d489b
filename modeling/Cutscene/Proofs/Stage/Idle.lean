import Cutscene.Proofs.Stage.Frame
import Cutscene.Proofs.Stage.Hooks

namespace Cutscene

namespace Motion

/-- The body after frames of these lengths, in the first of which that brings it to its place it
stops waiting. -/
def aged (frames : List Duration) (m : Motion) : Motion :=
  frames.foldl (fun m elapsed => (m.advance elapsed.singleSeconds).1) m

end Motion

namespace Drawing

def aged (frames : List Duration) (d : Drawing) : Drawing :=
  frames.foldl (fun d elapsed => (d.advance elapsed).1) d

/-- The drawings differ in how they move and fade at most. -/
def Alike (d d' : Drawing) : Prop :=
  { d' with motion := d.motion, opacity := d.opacity, fade := d.fade } = d

theorem Alike.refl (d : Drawing) : d.Alike d := rfl

theorem Alike.trans {d d' d'' : Drawing} (h : d.Alike d') (h' : d'.Alike d'') : d.Alike d'' := by
  rw [Alike] at h h' ⊢
  rw [← h, ← h']

theorem alike_advance (elapsed : Duration) (d : Drawing) : d.Alike (d.advance elapsed).1 := by
  obtain ⟨opacity, fade, hfaded⟩ := tickFade_eq elapsed d
  rw [Alike, advance, hfaded]

theorem alike_aged (frames : List Duration) (d : Drawing) : d.Alike (d.aged frames) := by
  induction frames generalizing d with
  | nil => exact .refl d
  | cons elapsed frames ih => exact (alike_advance elapsed d).trans (ih _)

theorem Alike.persistent {d d' : Drawing} (h : d.Alike d') : d'.persistent = d.persistent := by
  rw [← h]

theorem Alike.visual {d d' : Drawing} (h : d.Alike d') : d'.visual = d.visual := by
  rw [← h]

end Drawing

/-- The calls that do not start a script, and that have no business with the host. -/
def Call.idles {σ τ : Type} : Call σ τ → Bool
  | .update _ | .finish | .push _ | .release _ | .fire _ => true
  | _ => false

namespace Interpreter

variable {σ τ : Type} {host : Host σ} {elapsed : Duration} {s : Interpreter σ τ}

structure AtRest (s : Interpreter σ τ) : Prop where
  active : s.session.active = false
  pending : s.session.pending = none
  persistent : ∀ entry ∈ s.drawings, entry.2.persistent = true

/-- Everything on the stage goes on moving in frames of these lengths, and the images have their
ticks. -/
def rested (host : Host σ) (frames : List Duration) (s : Interpreter σ τ) : Interpreter σ τ :=
  { s with
    world := frames.foldl (fun world elapsed => ticked host elapsed s.drawings world) s.world
    drawings := s.drawings.map fun entry => (entry.1, entry.2.aged frames)
    camera := s.camera.aged frames }

theorem rested_nil (host : Host σ) (s : Interpreter σ τ) : s.rested host [] = s := by
  simp [rested, Drawing.aged, Motion.aged]

theorem ticked_map {f : Drawing → Drawing} (hf : ∀ d, (f d).visual = d.visual) (host : Host σ)
    (elapsed : Duration) (drawings : Named Drawing) (world : σ) :
    ticked host elapsed (drawings.map fun entry => (entry.1, f entry.2)) world =
      ticked host elapsed drawings world := by
  simp only [ticked, List.foldl_map, hf]

theorem rested_append (host : Host σ) (before after : List Duration) (s : Interpreter σ τ) :
    s.rested host (before ++ after) = (s.rested host before).rested host after := by
  have hvisual (d : Drawing) : (d.aged before).visual = d.visual := (d.alike_aged before).visual
  simp only [rested, ticked_map hvisual host, List.foldl_append]
  simp only [List.map_map, Drawing.aged, Motion.aged, List.foldl_append, Function.comp_def]

theorem AtRest.rested (h : s.AtRest) (host : Host σ) (frames : List Duration) :
    (s.rested host frames).AtRest := by
  refine ⟨h.active, h.pending, ?_⟩
  simp only [Interpreter.rested, List.forall_mem_map]
  intro entry hentry
  rw [(entry.2.alike_aged frames).persistent]
  exact h.persistent entry hentry

theorem AtRest.answer (h : s.AtRest) (host : Host σ) {call : Call σ τ} (hcall : call.idles = true) :
    s.answer host call = s.rested host (frames [call]) := by
  cases call with
  | start | startFile | draw | outside => cases hcall
  | update elapsed =>
      rw [Interpreter.answer, update_of_inactive h.active, animate_eq]
      rfl
  | finish =>
      have hsession : { s.session with active := false, pending := none } = s.session := by
        rw [← h.active, ← h.pending]
      have hdrawings : s.drawings.filter (fun entry => entry.2.persistent) = s.drawings :=
        List.filter_eq_self.mpr h.persistent
      rw [Interpreter.answer, finish, hsession, hdrawings]
      exact (rested_nil host s).symm
  | push button =>
      rw [Interpreter.answer, push, h.active]
      exact (rested_nil host s).symm
  | release | fire => exact (rested_nil host s).symm

theorem AtRest.run (h : s.AtRest) (host : Host σ) (calls : List (Call σ τ))
    (hcalls : ∀ call ∈ calls, call.idles = true) :
    s.run host calls = s.rested host (frames calls) := by
  induction calls generalizing s with
  | nil => exact (rested_nil host s).symm
  | cons call calls ih =>
      obtain ⟨hcall, hcalls⟩ := List.forall_mem_cons.mp hcalls
      rw [← List.singleton_append, frames_append, rested_append, ← h.answer host hcall]
      exact ih ((h.answer host hcall) ▸ h.rested host _) hcalls

theorem AtRest.talk (h : s.AtRest) (host : Host σ) (calls : List (Call σ τ))
    (hcalls : ∀ call ∈ calls, call.idles = true) : s.talk host calls = calls.map fun _ => [] := by
  induction calls generalizing s with
  | nil => rfl
  | cons call calls ih =>
      obtain ⟨hcall, hcalls⟩ := List.forall_mem_cons.mp hcalls
      have hrested : (s.answer host call).AtRest := by
        rw [h.answer host hcall]
        exact h.rested host _
      rw [Interpreter.talk, hooks_of_inactive call fun _ _ => h.active, ih hrested hcalls,
        List.map_cons]

def Kept (s : Interpreter σ τ) : Prop :=
  s.session.active = false → ∀ entry ∈ s.drawings, entry.2.persistent = true

theorem kept_of_active (h : s.session.active = true) : s.Kept := by
  intro hidle
  rw [h] at hidle
  cases hidle

theorem kept_finish (s : Interpreter σ τ) : s.finish.Kept :=
  fun _ _ hentry => (List.mem_filter.mp hentry).2

/-- A script that ends takes with it what is not persistent, whatever ends it. -/
theorem Kept.update (h : s.Kept) (host : Host σ) (elapsed : Duration) :
    (s.update host elapsed).1.Kept := by
  intro hleft
  have hstaged := staged_update host elapsed s
  cases hactive : s.session.active with
  | false =>
      rw [hstaged.idle hactive]
      simp only [List.forall_mem_map]
      intro entry hentry
      rw [(entry.2.alike_advance elapsed).persistent]
      exact h hactive entry hentry
  | true =>
      -- This frame ends the script, be it by an instruction, for lack of one or by a fault.
      have hends : ¬ GoesOn s (s.update host elapsed).1 := by
        intro hlasts
        rw [hlasts hactive] at hleft
        cases hleft
      rw [(hstaged.ended hends).1]
      exact fun entry hentry => (List.mem_filter.mp hentry).2

theorem Kept.answer (h : s.Kept) (host : Host σ) (call : Call σ τ) : (s.answer host call).Kept := by
  cases call with
  | start script handler index => exact kept_of_active rfl
  | startFile bytes handler index =>
      rw [Interpreter.answer, startFile]
      cases Script.ofBytes bytes with
      | ok script => exact kept_of_active rfl
      | error cause => exact h
  | update elapsed => exact h.update host elapsed
  | finish => exact kept_finish s
  | push button =>
      rw [Interpreter.answer, push]
      split
      · rename_i hreleased
        apply kept_of_active
        rw [(complete_frame s).2.2.2]
        exact (Bool.and_eq_true_iff.mp hreleased).1
      · exact h
  | draw | release | fire | outside => exact h

theorem Reachable.kept (h : Reachable host s) : s.Kept := by
  induction h with
  | fresh world =>
      intro _ entry hentry
      cases hentry
  | answer _ call ih => exact ih.answer host call

end Interpreter

end Cutscene
