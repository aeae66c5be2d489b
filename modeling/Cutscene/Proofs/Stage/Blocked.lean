import Cutscene.Proofs.Stage.Push

namespace Cutscene

namespace Recording

variable {r : Recording} {button : String}

/-- The button is blocked, or there is none of this name. -/
def Ignores (r : Recording) (button : String) : Prop :=
  ∀ state, (button, state) ∈ r.buttons → state.blocked = true

theorem ignores_iff (h : r.buttons.Sorted) :
    r.Ignores button ↔ r.isBlocked button = true ∨ r.buttons.has button = false := by
  rw [isBlocked, Named.has_eq_isSome]
  constructor
  · intro hignored
    cases hget : r.buttons.get? button with
    | none => exact .inr rfl
    | some state => exact .inl (hignored state (Named.mem_of_get?_eq_some hget))
  · intro hor state hmem
    rw [h.get?_of_mem hmem] at hor
    rcases hor with hblocked | hnone
    · exact hblocked
    · cases hnone

theorem anyDown_eq_false_iff :
    r.anyDown = false ↔ ∀ name state, (name, state) ∈ r.buttons → state.isDown = false := by
  simp [anyDown]

theorem isDown_of_anyDown (h : r.anyDown = false) (button : String) : r.isDown button = false := by
  rw [isDown]
  cases hget : r.buttons.get? button with
  | none => rfl
  | some state => exact anyDown_eq_false_iff.mp h button state (Named.mem_of_get?_eq_some hget)

theorem mem_buttons_hold {name : String} {state : ButtonState} {down : Bool}
    (h : (name, state) ∈ (r.hold button down).buttons) :
    ∃ old, (name, old) ∈ r.buttons ∧ state = if name = button then { old with down } else old := by
  obtain ⟨⟨other, old⟩, hold, hentry⟩ := List.mem_map.mp h
  cases hentry
  exact ⟨old, hold, rfl⟩

theorem Ignores.hold (h : r.Ignores button) (other : String) (down : Bool) :
    (r.hold other down).Ignores button := by
  intro state hmem
  obtain ⟨old, hold, rfl⟩ := mem_buttons_hold hmem
  have hblocked := h old hold
  split <;> exact hblocked

theorem anyDown_hold (h : r.anyDown = false) {down : Bool}
    (hignored : down = true → r.Ignores button) : (r.hold button down).anyDown = false := by
  rw [anyDown_eq_false_iff] at h ⊢
  intro name state hmem
  obtain ⟨old, hold, rfl⟩ := mem_buttons_hold hmem
  split
  · rename_i hname
    subst hname
    cases down with
    | false => rfl
    | true =>
        have hblocked : old.blocked = true := hignored rfl old hold
        rw [ButtonState.isDown, hblocked]
        rfl
  · exact h name old hold

end Recording

inductive Input where
  | frame (elapsed : Duration)
  | hold (button : String) (down : Bool)
  | push (button : String)
  deriving DecidableEq

def Input.call {τ : Type} : Input → Call Recording τ
  | .frame elapsed => .update elapsed
  | .hold button down => .outside (Recording.hold button down) id
  | .push button => .push button

theorem Input.begins_call {τ : Type} (input : Input) :
    (input.call : Call Recording τ).begins = false := by
  cases input <;> rfl

namespace Interpreter

variable {τ : Type} {s : Interpreter Recording τ} {p : Suspension}

def play (inputs : List Input) (s : Interpreter Recording τ) : Interpreter Recording τ :=
  s.run Recording.host (inputs.map Input.call)

theorem play_append (before after : List Input) (s : Interpreter Recording τ) :
    s.play (before ++ after) = (s.play before).play after := by
  rw [play, List.map_append, run_append]
  rfl

/-- The script waits for a button, and of those that are down, all are blocked. -/
structure Unheard (p : Suspension) (s : Interpreter Recording τ) : Prop where
  active : s.session.active = true
  pending : s.session.pending = some p
  button : p = .anyButton ∨ ∃ name, p = .button name
  quiet : s.world.anyDown = false

theorem Unheard.update (h : Unheard p s) (elapsed : Duration) :
    (s.update Recording.host elapsed).1 = (s.animate Recording.host elapsed).1 := by
  have hnot : (s.animate Recording.host elapsed).2.meet s.session.pending = false := by
    rw [h.pending]
    rcases h.button with rfl | ⟨name, rfl⟩ <;> rfl
  have hpending : (s.animate Recording.host elapsed).1.session.pending = some p := h.pending
  have hquiet : (s.animate Recording.host elapsed).1.world.anyDown = false := by
    rw [world_animate Recording.still]
    exact h.quiet
  have hpoll : (s.animate Recording.host elapsed).1.poll Recording.host elapsed p =
      ((s.animate Recording.host elapsed).1, .ok false) := by
    rcases h.button with rfl | ⟨name, rfl⟩
    · exact congrArg (fun down => ((s.animate Recording.host elapsed).1, Except.ok down)) hquiet
    · exact congrArg (fun down => ((s.animate Recording.host elapsed).1, Except.ok down))
        (Recording.isDown_of_anyDown hquiet name)
  rw [update_of_active h.active, settle_of_not_meet hnot, step, hpending]
  simp only [hpoll]
  rfl

theorem Unheard.push (h : Unheard p s) {button : String} (hnot : p.releasedBy button = false) :
    s.push button = s := by
  apply push_of_not_waits
  rintro ⟨-, hwaits⟩
  rw [h.pending] at hwaits
  have hreleased : p.releasedBy button = true := by
    rw [Suspension.releasedBy_iff]
    exact hwaits.imp Option.some.inj Option.some.inj
  rw [hnot] at hreleased
  cases hreleased

theorem Unheard.answer (h : Unheard p s) {input : Input}
    (hheld : ∀ button, input = .hold button true → s.world.Ignores button)
    (hpush : ∀ button, input = .push button → p.releasedBy button = false) :
    Unheard p (s.answer Recording.host input.call) ∧
      (s.answer Recording.host input.call).session = s.session ∧
      ∀ button, s.world.Ignores button →
        (s.answer Recording.host input.call).world.Ignores button := by
  cases input with
  | frame elapsed =>
      have hworld := world_animate Recording.still elapsed s
      rw [Input.call, Interpreter.answer, h.update elapsed, hworld]
      refine ⟨⟨h.active, h.pending, h.button, ?_⟩, rfl, fun _ hignored => hignored⟩
      rw [hworld]
      exact h.quiet
  | hold button down =>
      have hquiet : (s.world.hold button down).anyDown = false := by
        apply Recording.anyDown_hold h.quiet
        rintro rfl
        exact hheld button rfl
      exact ⟨⟨h.active, h.pending, h.button, hquiet⟩, rfl, fun _ hignored => hignored.hold _ _⟩
  | push button =>
      rw [Input.call, Interpreter.answer, h.push (hpush button rfl)]
      exact ⟨h, rfl, fun _ hignored => hignored⟩

theorem Unheard.play (h : Unheard p s) (inputs : List Input)
    (hheld : ∀ button, .hold button true ∈ inputs → s.world.Ignores button)
    (hpush : ∀ button, .push button ∈ inputs → p.releasedBy button = false) :
    Unheard p (s.play inputs) ∧ (s.play inputs).session = s.session := by
  induction inputs generalizing s with
  | nil => exact ⟨h, rfl⟩
  | cons input inputs ih =>
      obtain ⟨hnext, hsession, hignored⟩ := h.answer
        (fun button hinput => hheld button (hinput ▸ List.mem_cons_self))
        (fun button hinput => hpush button (hinput ▸ List.mem_cons_self))
      rw [← hsession]
      exact ih hnext
        (fun button hmem => hignored button (hheld button (List.mem_cons_of_mem input hmem)))
        (fun button hmem => hpush button (List.mem_cons_of_mem input hmem))

theorem Reachable.unheard (h : Reachable Recording.host s) (hpending : s.session.pending = some p)
    (hp : p = .anyButton ∨ ∃ name, p = .button name) (hquiet : s.world.anyDown = false) :
    Unheard p s :=
  ⟨(h.inStep p hpending).1, hpending, hp, hquiet⟩

/-- While of the buttons that are down all are blocked, a wait for a button ends with the first push
that it is for, and not before. Whether the button that is pushed is blocked makes no difference. -/
theorem Reachable.blocked_buttons (h : Reachable Recording.host s)
    (hpending : s.session.pending = some p) (hp : p = .anyButton ∨ ∃ name, p = .button name)
    (hquiet : s.world.anyDown = false) (inputs : List Input)
    (hheld : ∀ button, .hold button true ∈ inputs → s.world.Ignores button) :
    ((∀ button, .push button ∈ inputs → p.releasedBy button = false) →
      (s.play inputs).session = s.session) ∧
    ∀ before button after, inputs = before ++ .push button :: after →
      (∀ other, .push other ∈ before → p.releasedBy other = false) →
      p.releasedBy button = true →
        (s.play (before ++ [.push button])).session = passed s.session ∧
          s.session.index < (s.play inputs).session.index := by
  have hunheard := h.unheard hpending hp hquiet
  refine ⟨fun hpush => (hunheard.play inputs hheld hpush).2, ?_⟩
  rintro before button after rfl hbefore hbutton
  obtain ⟨hnow, hsession⟩ := hunheard.play before
    (fun other hmem => hheld other (List.mem_append_left _ hmem)) hbefore
  have hwaits : (s.play before).WaitsForButton button := by
    refine ⟨hnow.active, ?_⟩
    rw [hnow.pending]
    exact (Suspension.releasedBy_iff button p).mp hbutton |>.imp (congrArg some) (congrArg some)
  have hpushed : s.play (before ++ [.push button]) = (s.play before).moveOn := by
    rw [play_append]
    exact push_of_waits hwaits
  have hpassed : (s.play (before ++ [.push button])).session = passed s.session := by
    rw [hpushed, ← hsession]
    rfl
  refine ⟨hpassed, ?_⟩
  have hrest : (s.play (before ++ [.push button])).session.index ≤
      (s.play (before ++ [.push button] ++ after)).session.index := by
    rw [play_append _ after]
    apply index_le_run
    intro call hcall
    obtain ⟨input, -, rfl⟩ := List.mem_map.mp hcall
    exact input.begins_call
  rw [hpassed, List.append_assoc, List.singleton_append] at hrest
  exact hrest

def shut : Interpreter Recording Unit :=
  let fresh : Interpreter Recording Unit := { world := .start ["A"] Recording.defaultResolution }
  let script : List Instruction :=
    [{ command := .builtin .blockAllInputs }, { command := .builtin .waitForAnyButton }]
  fresh.run Recording.host [.start script none 0, .update ⟨0⟩, .update ⟨0⟩]

/-- The button is held down to no effect, and then pushed, which ends the wait. -/
theorem blocked_buttons_shut :
    let before : List Input := [.hold "A" true, .frame ⟨0⟩]
    Reachable Recording.host shut ∧ shut.session.pending = some .anyButton ∧
      shut.world.isBlocked "A" = true ∧ (shut.play before).session = shut.session ∧
      (shut.play (before ++ [.push "A"])).session = passed shut.session := by
  intro before
  have hreachable : Reachable Recording.host shut := (Reachable.fresh _).run _
  have hpending : shut.session.pending = some .anyButton := by decide +kernel
  have hquiet : shut.world.anyDown = false := by decide +kernel
  have hblocked : shut.world.isBlocked "A" = true := by decide +kernel
  have hsorted : shut.world.buttons.Sorted := by
    have hbuttons : shut.world.buttons = [("A", ⟨false, true⟩)] := by decide +kernel
    rw [hbuttons]
    exact List.pairwise_singleton _ _
  have hignored : shut.world.Ignores "A" := (Recording.ignores_iff hsorted).mpr (.inl hblocked)
  have hheld : ∀ button, .hold button true ∈ before ++ [.push "A"] →
      shut.world.Ignores button := by
    intro button hmem
    simp only [before, List.cons_append, List.nil_append, List.mem_cons, List.not_mem_nil,
      reduceCtorEq, or_false, Input.hold.injEq, and_true] at hmem
    rw [hmem]
    exact hignored
  obtain ⟨-, hpushed⟩ :=
    hreachable.blocked_buttons hpending (.inl rfl) hquiet (before ++ [.push "A"]) hheld
  have hbefore : ∀ button, .push button ∈ before →
      Suspension.anyButton.releasedBy button = false := by
    intro button hmem
    simp [before] at hmem
  obtain ⟨hstill, -⟩ := hreachable.blocked_buttons hpending (.inl rfl) hquiet before
    fun button hmem => hheld button (List.mem_append_left _ hmem)
  obtain ⟨hpassed, -⟩ := hpushed before "A" [] rfl hbefore rfl
  exact ⟨hreachable, hpending, hblocked, hstill hbefore, hpassed⟩

end Interpreter

end Cutscene
