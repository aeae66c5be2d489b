import Cutscene.Proofs.Stage.Hooks

namespace Cutscene

def Call.tellsOfButton {σ τ : Type} : Call σ τ → Bool
  | .push _ | .release _ | .fire _ => true
  | _ => false

namespace Interpreter

variable {σ τ : Type} {host : Host σ} {elapsed : Duration} {s : Interpreter σ τ} {p : Suspension}
  {button : String}

def WaitsForButton (button : String) (s : Interpreter σ τ) : Prop :=
  s.session.active = true ∧
    (s.session.pending = some .anyButton ∨ s.session.pending = some (.button button))

/-- A button that is waited for is pushed in one of these calls. -/
def Heeds (s : Interpreter σ τ) (calls : List (Call σ τ)) : Prop :=
  ∃ button, .push button ∈ calls ∧ s.WaitsForButton button

def moveOn (s : Interpreter σ τ) : Interpreter σ τ := { s with session := passed s.session }

theorem complete_of_pending (h : s.session.pending = some p) : s.complete = s.moveOn := by
  rw [complete, h]
  rfl

theorem releases_iff (button : String) (s : Interpreter σ τ) :
    (s.session.active && s.session.pending.any (·.releasedBy button)) = true ↔
      s.WaitsForButton button := by
  rw [Bool.and_eq_true, WaitsForButton]
  cases s.session.pending with
  | none => simp
  | some p => simp only [Option.any_some, Suspension.releasedBy_iff, Option.some.injEq]

theorem push_of_waits (h : s.WaitsForButton button) : s.push button = s.moveOn := by
  have hpending : ∃ p, s.session.pending = some p := h.2.elim (⟨_, ·⟩) (⟨_, ·⟩)
  obtain ⟨p, hp⟩ := hpending
  rw [push, if_pos ((releases_iff button s).mpr h), complete_of_pending hp]

theorem push_of_not_waits (h : ¬ s.WaitsForButton button) : s.push button = s := by
  rw [push, if_neg]
  exact fun hreleases => h ((releases_iff button s).mp hreleases)

theorem not_heeds_of_pending_eq_none (h : s.session.pending = none) (calls : List (Call σ τ)) :
    ¬ s.Heeds calls := by
  rintro ⟨button, -, -, hany | hbutton⟩
  · rw [h] at hany
    cases hany
  · rw [h] at hbutton
    cases hbutton

theorem heeds_cons {call : Call σ τ} {calls : List (Call σ τ)}
    (h : ∀ button, call = .push button → ¬ s.WaitsForButton button) :
    s.Heeds (call :: calls) ↔ s.Heeds calls := by
  constructor
  · rintro ⟨button, hmem, hwaits⟩
    rcases List.mem_cons.mp hmem with hcall | hmem
    · exact absurd hwaits (h button hcall.symm)
    · exact ⟨button, hmem, hwaits⟩
  · rintro ⟨button, hmem, hwaits⟩
    exact ⟨button, List.mem_cons_of_mem call hmem, hwaits⟩

theorem run_of_tellsOfButton (host : Host σ) (calls : List (Call σ τ))
    (hcalls : ∀ call ∈ calls, call.tellsOfButton = true) :
    (s.Heeds calls → s.run host calls = s.moveOn) ∧
      (¬ s.Heeds calls → s.run host calls = s) := by
  induction calls generalizing s with
  | nil =>
      refine ⟨?_, fun _ => rfl⟩
      rintro ⟨button, hmem, -⟩
      cases hmem
  | cons call calls ih =>
      obtain ⟨hcall, hrest⟩ := List.forall_mem_cons.mp hcalls
      cases call with
      | start | startFile | update | draw | finish | outside => cases hcall
      | release | fire =>
          rw [heeds_cons fun _ hpush => by cases hpush]
          exact ih hrest
      | push button =>
          rw [run, List.foldl_cons, answer]
          by_cases hwaits : s.WaitsForButton button
          · rw [push_of_waits hwaits]
            have hdone : ¬ s.moveOn.Heeds calls := not_heeds_of_pending_eq_none rfl calls
            refine ⟨fun _ => (ih hrest).2 hdone, fun hnot => ?_⟩
            exact absurd ⟨button, List.mem_cons_self, hwaits⟩ hnot
          · rw [push_of_not_waits hwaits, heeds_cons]
            · exact ih hrest
            · intro other hother
              cases hother
              exact hwaits

theorem talk_of_tellsOfButton (host : Host σ) (s : Interpreter σ τ) (calls : List (Call σ τ))
    (hcalls : ∀ call ∈ calls, call.tellsOfButton = true) :
    s.talk host calls = calls.map fun _ => [] := by
  induction calls generalizing s with
  | nil => rfl
  | cons call calls ih =>
      obtain ⟨hcall, hrest⟩ := List.forall_mem_cons.mp hcalls
      have hframe : frames [call] = [] := by
        cases call with
        | update elapsed => cases hcall
        | _ => rfl
      rw [talk, hooks_of_not_frame hframe, ih _ hrest, List.map_cons]

theorem heeds_congr {calls calls' : List (Call σ τ)}
    (h : ∀ button, .push button ∈ calls' ↔ .push button ∈ calls) :
    s.Heeds calls' ↔ s.Heeds calls := by
  simp only [Heeds, h]

/-- A frame of a script that nothing holds up carries out the instruction number `k`, or ends the
script if there is none. -/
structure Resumes (host : Host σ) (elapsed : Duration) (k : Nat) (s : Interpreter σ τ) : Prop where
  update_eq : s.update host elapsed =
    match s.session.script[k]? with
    | none => ((s.animate host elapsed).1.finish, none)
    | some i =>
        match (s.animate host elapsed).1.dispatch host i with
        | (left, .ok ()) => (left, none)
        | (left, .error fault) => (left.finish, some (.instruction k fault))
  /-- It makes no difference which buttons are held down. -/
  unasked : ∀ isDown anyDown,
    s.update { host with isDown, anyDown } elapsed = s.update host elapsed
  /-- No other instruction is carried out or completed. -/
  marks : ∀ m ∈ s.marks host (.update elapsed), m.index = k

theorem update_of_ready (host : Host σ) (elapsed : Duration) (hactive : s.session.active = true)
    (hpending : s.session.pending = none) :
    s.update host elapsed =
      match s.session.current? with
      | none => ((s.animate host elapsed).1.finish, none)
      | some i =>
          match (s.animate host elapsed).1.dispatch host i with
          | (left, .ok ()) => (left, none)
          | (left, .error fault) => (left.finish, some (.instruction s.session.index fault)) := by
  have hnot : (s.animate host elapsed).2.meet s.session.pending = false := by rw [hpending]; rfl
  have hmoved : (s.animate host elapsed).1.session = s.session := rfl
  rw [update_of_active hactive, settle_of_not_meet hnot, step, hmoved, hpending]
  cases s.session.current? with
  | none => rfl
  | some i =>
      have hsession := (carryOut_frame host i (s.animate host elapsed).1).1
      simp only [dispatch]
      generalize (s.animate host elapsed).1.carryOut host i = result at hsession ⊢
      obtain ⟨left, fault | flow⟩ := result
      · have hindex : left.session = s.session := hsession
        simp only [hindex]
      · rfl

theorem index_of_mem_stepMarks {m : Mark} (h : m ∈ s.stepMarks host elapsed) :
    m.index = s.session.index := by
  rw [stepMarks] at h
  cases hpending : s.session.pending with
  | some p =>
      rw [hpending] at h
      simp only at h
      split at h
      · rw [List.mem_singleton.mp h]
        rfl
      · cases h
  | none =>
      rw [hpending] at h
      simp only at h
      split at h
      · cases h
      · split at h
        · simp only [List.mem_cons, List.not_mem_nil, or_false] at h
          rcases h with rfl | rfl <;> rfl
        · rw [List.mem_singleton.mp h]
          rfl

theorem resumes_of_ready (host : Host σ) (elapsed : Duration) (hactive : s.session.active = true)
    (hpending : s.session.pending = none) : Resumes host elapsed s.session.index s := by
  refine ⟨update_of_ready host elapsed hactive hpending, ?_, ?_⟩
  · intro isDown anyDown
    -- To carry an instruction out takes no look at the buttons that are held down.
    have htick : ({ host with isDown, anyDown } : Host σ).tick = host.tick := rfl
    have hmoved := animate_congr htick elapsed s
    rw [update_of_ready _ elapsed hactive hpending, update_of_ready host elapsed hactive hpending,
      hmoved]
    rfl
  · intro m hm
    have hnot : (s.animate host elapsed).2.meet s.session.pending = false := by rw [hpending]; rfl
    rw [marks_update_of_active hactive, hnot, settle_of_not_meet hnot] at hm
    exact @index_of_mem_stepMarks σ τ host elapsed (s.animate host elapsed).1 m hm

/-- Whatever is done to the buttons between two frames, it completes one instruction if a button is
pushed that the script waits for, and else changes nothing. Neither the order of the calls matters
nor how often one is made. The next frame is at the next instruction, whatever is held down. -/
theorem buttons_between_frames (host : Host σ) (s : Interpreter σ τ) (calls : List (Call σ τ))
    (hcalls : ∀ call ∈ calls, call.tellsOfButton = true) :
    (s.Heeds calls → s.run host calls = s.moveOn ∧
      ∀ elapsed, Resumes host elapsed (s.session.index + 1) (s.run host calls)) ∧
    (¬ s.Heeds calls → s.run host calls = s) ∧
    (∀ calls' : List (Call σ τ), (∀ call ∈ calls', call.tellsOfButton = true) →
      (∀ button, .push button ∈ calls' ↔ .push button ∈ calls) →
        s.run host calls' = s.run host calls) ∧
    s.talk host calls = calls.map fun _ => [] := by
  obtain ⟨hheeded, hunheeded⟩ := @run_of_tellsOfButton σ τ s host calls hcalls
  refine ⟨fun hheeds => ⟨hheeded hheeds, fun elapsed => ?_⟩, hunheeded, ?_, ?_⟩
  · have hrun := hheeded hheeds
    obtain ⟨-, -, hactive, -⟩ := hheeds
    rw [hrun]
    exact @resumes_of_ready σ τ s.moveOn host elapsed hactive rfl
  · intro calls' hcalls' hsame
    obtain ⟨hheeded', hunheeded'⟩ := @run_of_tellsOfButton σ τ s host calls' hcalls'
    by_cases hheeds : s.Heeds calls
    · rw [hheeded hheeds, hheeded' ((heeds_congr hsame).mpr hheeds)]
    · rw [hunheeded hheeds, hunheeded' (mt (heeds_congr hsame).mp hheeds)]
  · exact talk_of_tellsOfButton host s calls hcalls

def heldAtGate : Interpreter Recording Unit :=
  atGate.run Recording.host [.update ⟨0⟩, .outside (Recording.hold "A" true) id]

theorem buttons_between_frames_heldAtGate :
    let calls : List (Call Recording Unit) := [.push "B", .push "A", .release "A", .push "A"]
    heldAtGate.world.isDown "A" = true ∧ heldAtGate.Heeds calls ∧
      heldAtGate.run Recording.host calls = heldAtGate.moveOn ∧
      ∀ m ∈ (heldAtGate.run Recording.host calls).marks Recording.host (.update ⟨0⟩),
        m.index = 1 := by
  intro calls
  have hcalls : ∀ call ∈ calls, call.tellsOfButton = true := by
    simp only [calls, List.forall_mem_cons]
    exact ⟨rfl, rfl, rfl, rfl, nofun⟩
  have hindex : heldAtGate.session.index = 0 := by decide +kernel
  have hheeds : heldAtGate.Heeds calls := by
    refine ⟨"A", ?_, by decide +kernel, .inr (by decide +kernel)⟩
    exact List.mem_cons_of_mem _ List.mem_cons_self
  obtain ⟨hheeded, -⟩ := buttons_between_frames Recording.host heldAtGate calls hcalls
  obtain ⟨hrun, hresumes⟩ := hheeded hheeds
  refine ⟨by decide +kernel, hheeds, hrun, fun m hm => ?_⟩
  rw [(hresumes ⟨0⟩).marks m hm, hindex]

end Interpreter

end Cutscene
