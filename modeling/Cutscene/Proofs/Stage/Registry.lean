import Cutscene.Proofs.Stage.Effect

namespace Cutscene.Interpreter

open Named (Sorted)

variable {σ τ : Type} {host : Host σ} {elapsed : Duration} {s : Interpreter σ τ}

theorem sorted_animate (h : Sorted s.drawings) : Sorted (s.animate host elapsed).1.drawings := by
  rw [drawings_animate]
  exact h.map fun entry => (entry.2.advance elapsed).1

theorem sorted_settle (host : Host σ) (elapsed : Duration) (h : Sorted s.drawings) :
    Sorted (s.settle host elapsed).drawings := by
  rw [settle]
  split
  · rw [(complete_frame _).1]
    exact sorted_animate h
  · exact sorted_animate h

theorem sorted_finish (h : Sorted s.drawings) : Sorted s.finish.drawings :=
  h.filter fun entry => entry.2.persistent

theorem sorted_carryOut (host : Host σ) (i : Instruction) (h : Sorted s.drawings) :
    Sorted (s.carryOut host i).1.drawings := by
  cases hresult : (s.carryOut host i).2 with
  | error fault =>
      have hrefused := carryOut_refused hresult
      generalize (s.carryOut host i).1 = left at hrefused ⊢
      cases hrefused <;> exact h
  | ok flow =>
      cases hcommand : i.command with
      | custom name =>
          have hframe := callHandler_frame host (fun handler => handler.interpret name i) s
          rw [(carryOut_of_custom hcommand).1, hframe.2.1]
          exact h
      | builtin opcode =>
          obtain ⟨action, -, hcarry⟩ := carryOut_of_builtin hcommand hresult
          rw [hcarry] at hresult ⊢
          exact (perform_redraws hresult).sorted h

theorem sorted_dispatch {i : Instruction} (h : Sorted s.drawings) :
    Sorted (s.dispatch host i).1.drawings := by
  have hsorted := sorted_carryOut host i h
  rw [dispatch]
  generalize s.carryOut host i = result at hsorted
  obtain ⟨s', fault | flow⟩ := result
  · exact hsorted
  · cases flow with
    | done | suspend => exact hsorted
    | finish => exact sorted_finish hsorted

theorem poll_frame (host : Host σ) (elapsed : Duration) (s : Interpreter σ τ) (p : Suspension) :
    (s.poll host elapsed p).1.drawings = s.drawings ∧
      (s.poll host elapsed p).1.camera = s.camera ∧
      (s.poll host elapsed p).1.handler.isSome = s.handler.isSome := by
  cases p with
  | wait | button | anyButton | drawingPosition | cameraPosition => exact ⟨rfl, rfl, rfl⟩
  | custom =>
      rw [poll]
      cases s.session.current? with
      | none => exact ⟨rfl, rfl, rfl⟩
      | some i =>
          exact (callHandler_frame host (fun handler => handler.update i.command.name i elapsed) s).2

theorem sorted_step (host : Host σ) (elapsed : Duration) (h : Sorted s.drawings) :
    Sorted (s.step host elapsed).1.drawings := by
  rw [step]
  cases s.session.pending with
  | some p =>
      have hsorted := h
      rw [← (poll_frame host elapsed s p).1] at hsorted
      simp only
      generalize s.poll host elapsed p = result at hsorted
      obtain ⟨s', fault | done⟩ := result
      · exact hsorted
      · cases done with
        | false => exact hsorted
        | true =>
            change Sorted s'.complete.drawings
            rwa [(complete_frame _).1]
  | none =>
      cases s.session.current? with
      | none => exact sorted_finish h
      | some i => exact sorted_dispatch h

theorem sorted_update (h : Sorted s.drawings) : Sorted (s.update host elapsed).1.drawings := by
  cases hactive : s.session.active with
  | false =>
      rw [update_of_inactive hactive]
      exact sorted_animate h
  | true =>
      have hsorted := sorted_step host elapsed (sorted_settle host elapsed h)
      rw [update_of_active hactive]
      generalize (s.settle host elapsed).step host elapsed = result at hsorted
      obtain ⟨s', fault | _⟩ := result
      · exact sorted_finish hsorted
      · exact hsorted

theorem sorted_answer (h : Sorted s.drawings) (call : Call σ τ) :
    Sorted (s.answer host call).drawings := by
  cases call with
  | start | draw | release | fire | outside => exact h
  | startFile bytes handler index =>
      rw [answer, startFile]
      cases Script.ofBytes bytes with
      | ok script => exact h
      | error cause => exact h
  | update elapsed => exact sorted_update h
  | finish => exact sorted_finish h
  | push button =>
      rw [answer, push]
      split
      · rwa [(complete_frame _).1]
      · exact h

theorem Reachable.sorted (h : Reachable host s) : Sorted s.drawings := by
  induction h with
  | fresh world => exact List.Pairwise.nil
  | answer _ call ih => exact sorted_answer ih call

end Cutscene.Interpreter
