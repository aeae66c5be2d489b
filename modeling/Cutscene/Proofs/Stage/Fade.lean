import Cutscene.Proofs.Stage.Hooks
import Cutscene.Proofs.Stage.Touch
import Mathlib.Data.List.Induction

namespace Cutscene

open Touch (ticks)

namespace Countdown

def outlasts (c : Countdown) : List Duration → Bool
  | [] => true
  | d :: ds => (c.tick d).left?.isSome && (c.tick d).outlasts ds

theorem outlasts_concat (c : Countdown) (ds : List Duration) (d : Duration) :
    c.outlasts (ds ++ [d]) = (c.outlasts ds && (c.after (ds ++ [d])).left?.isSome) := by
  induction ds generalizing c with
  | nil => exact Bool.and_true _
  | cons e ds ih =>
      rw [List.cons_append, outlasts, ih, outlasts, Bool.and_assoc]
      rfl

end Countdown

namespace Drawing

variable {d d' : Drawing} {visual : Visual} {elapsed : Duration} {direction : FadeDirection}
  {timer : Countdown} {touches history : List Touch} {touch : Touch}

theorem tickFade_of_none (h : d.fade = none) : d.tickFade elapsed = d := by
  rw [tickFade, h]

theorem fade_tickFade (h : d.fade = some ⟨direction, timer⟩) :
    (d.tickFade elapsed).fade =
      if (timer.tick elapsed).left?.isSome then some ⟨direction, timer.tick elapsed⟩ else none := by
  rw [tickFade, h]
  simp only [Countdown.fraction?]
  cases (timer.tick elapsed).left? <;> rfl

/-- The frame in which the time runs out leaves the drawing in its final state. -/
theorem opacity_tickFade (h : d.fade = some ⟨direction, timer⟩)
    (hover : (timer.tick elapsed).left? = none) :
    (d.tickFade elapsed).opacity = direction.final := by
  rw [tickFade, h]
  simp only [Countdown.fraction?, hover]
  rfl

theorem touch_frame (hfade : touch.isFade = false) (htick : touch.tick? = none) :
    (d.touch touch).opacity = d.opacity ∧ (d.touch touch).fade = d.fade := by
  cases touch with
  | fade => cases hfade
  | update => cases htick
  | replace | waitFor | assign => exact ⟨rfl, rfl⟩

def fadeThrough (ds : List Duration) (d : Drawing) : Drawing :=
  ds.foldl (fun d elapsed => d.tickFade elapsed) d

theorem fadeThrough_cons (elapsed : Duration) (ds : List Duration) (d : Drawing) :
    d.fadeThrough (elapsed :: ds) = (d.tickFade elapsed).fadeThrough ds := List.foldl_cons ..

theorem fadeThrough_concat (ds : List Duration) (elapsed : Duration) (d : Drawing) :
    d.fadeThrough (ds ++ [elapsed]) = (d.fadeThrough ds).tickFade elapsed := List.foldl_append

theorem fade_fadeThrough (h : d.fade = some ⟨direction, timer⟩) (ds : List Duration) :
    (d.fadeThrough ds).fade =
      if timer.outlasts ds then some ⟨direction, timer.after ds⟩ else none := by
  induction ds using List.reverseRecOn with
  | nil => exact h
  | append_singleton ds elapsed ih =>
      rw [fadeThrough_concat, Countdown.outlasts_concat]
      cases houtlasts : timer.outlasts ds with
      | false =>
          rw [houtlasts] at ih
          rw [tickFade_of_none ih, ih]
          rfl
      | true =>
          rw [houtlasts, if_pos rfl] at ih
          rw [fade_tickFade ih, ← Countdown.after_concat, Bool.true_and]

structure FadesAlike (d d' : Drawing) : Prop where
  opacity : d.opacity = d'.opacity
  fade : d.fade = d'.fade

theorem fadesAlike_tickFade (h : d.fade = d'.fade) (hgoing : d.fade ≠ none) (elapsed : Duration) :
    FadesAlike (d.tickFade elapsed) (d'.tickFade elapsed) := by
  cases hfade : d.fade with
  | none => exact absurd hfade hgoing
  | some fade =>
      rw [tickFade, tickFade, ← h, hfade]
      simp only
      split <;> exact ⟨rfl, rfl⟩

theorem FadesAlike.tickFade (h : FadesAlike d d') (elapsed : Duration) :
    FadesAlike (d.tickFade elapsed) (d'.tickFade elapsed) := by
  by_cases hgoing : d.fade = none
  · rw [tickFade_of_none hgoing, tickFade_of_none (h.fade.symm.trans hgoing)]
    exact h
  · exact fadesAlike_tickFade h.fade hgoing elapsed

theorem FadesAlike.fadeThrough (h : FadesAlike d d') (ds : List Duration) :
    FadesAlike (d.fadeThrough ds) (d'.fadeThrough ds) := by
  induction ds generalizing d d' with
  | nil => exact h
  | cons elapsed ds ih =>
      rw [fadeThrough_cons, fadeThrough_cons]
      exact ih (h.tickFade elapsed)

theorem fadesAlike_touchAll (h : ∀ touch ∈ touches, touch.isFade = false) (d : Drawing) :
    FadesAlike (d.touchAll touches) (d.fadeThrough (ticks touches)) := by
  induction touches using List.reverseRecOn with
  | nil => exact ⟨rfl, rfl⟩
  | append_singleton touches touch ih =>
      obtain ⟨hbefore, hlast⟩ := List.forall_mem_append.mp h
      have ih := ih hbefore
      rw [touchAll_concat]
      cases touch with
      | fade => cases List.forall_mem_singleton.mp hlast
      | replace | waitFor | assign =>
          rw [Touch.ticks_of_tick? rfl]
          exact ⟨ih.opacity, ih.fade⟩
      | update elapsed =>
          rw [Touch.ticks_update, fadeThrough_concat]
          have hticked := ih.tickFade elapsed
          exact ⟨hticked.opacity, hticked.fade⟩

theorem fade_touchAll (h : d.fade = some ⟨direction, timer⟩)
    (htouches : ∀ touch ∈ touches, touch.isFade = false) :
    (d.touchAll touches).fade =
      if timer.outlasts (ticks touches) then some ⟨direction, timer.after (ticks touches)⟩
      else none :=
  (fadesAlike_touchAll htouches d).fade.trans (fade_fadeThrough h (ticks touches))

end Drawing

/-- After these touches a fade is going on: it was started, no other one was since then, and some time
is left after each frame since. -/
def Going (history : List Touch) (direction : FadeDirection) (timer : Countdown) : Prop :=
  ∃ before millis since, history = before ++ .fade direction millis :: since ∧
    (∀ touch ∈ since, touch.isFade = false) ∧
    (Countdown.start millis).outlasts (ticks since) = true ∧
    timer = (Countdown.start millis).after (ticks since)

namespace Going

variable {history : List Touch} {touch : Touch} {direction : FadeDirection} {timer : Countdown}
  {elapsed : Duration}

theorem start (history : List Touch) (direction : FadeDirection) (millis : UInt32) :
    Going (history ++ [.fade direction millis]) direction (.start millis) :=
  ⟨history, millis, [], rfl, List.forall_mem_nil _, rfl, rfl⟩

theorem other (h : Going history direction timer) (hfade : touch.isFade = false)
    (htick : touch.tick? = none) : Going (history ++ [touch]) direction timer := by
  obtain ⟨before, millis, since, rfl, hsince, houtlasts, rfl⟩ := h
  have hnext : ∀ touch' ∈ since ++ [touch], touch'.isFade = false :=
    List.forall_mem_append.mpr ⟨hsince, List.forall_mem_singleton.mpr hfade⟩
  have hticks := Touch.ticks_of_tick? htick since
  exact ⟨before, millis, since ++ [touch], by rw [List.append_assoc]; rfl, hnext,
    by rwa [hticks], by rw [hticks]⟩

theorem tick (h : Going history direction timer) (hleft : (timer.tick elapsed).left?.isSome) :
    Going (history ++ [.update elapsed]) direction (timer.tick elapsed) := by
  obtain ⟨before, millis, since, rfl, hsince, houtlasts, rfl⟩ := h
  have hnext : ∀ touch ∈ since ++ [.update elapsed], touch.isFade = false :=
    List.forall_mem_append.mpr ⟨hsince, List.forall_mem_singleton.mpr rfl⟩
  refine ⟨before, millis, since ++ [.update elapsed], by rw [List.append_assoc]; rfl, hnext, ?_, ?_⟩
  · rw [Touch.ticks_update, Countdown.outlasts_concat, houtlasts, Countdown.after_concat, hleft]
    rfl
  · rw [Touch.ticks_update, Countdown.after_concat]

end Going

namespace Drawing

variable {visual : Visual} {direction : FadeDirection} {timer : Countdown} {history : List Touch}

theorem going_of_fade (h : ((ofVisual visual).touchAll history).fade = some ⟨direction, timer⟩) :
    Going history direction timer := by
  induction history using List.reverseRecOn generalizing timer with
  | nil => cases h
  | append_singleton history touch ih =>
      rw [touchAll_concat] at h
      cases touch with
      | fade started millis =>
          have hstarted : Fade.mk started (.start millis) = ⟨direction, timer⟩ := Option.some.inj h
          obtain ⟨rfl, rfl⟩ := Fade.mk.inj hstarted
          exact .start history started millis
      | replace | waitFor | assign =>
          rw [(touch_frame rfl rfl).2] at h
          exact (ih h).other rfl rfl
      | update elapsed =>
          change (((ofVisual visual).touchAll history).tickFade elapsed).fade = _ at h
          cases hfade : ((ofVisual visual).touchAll history).fade with
          | none =>
              rw [tickFade_of_none hfade, hfade] at h
              cases h
          | some fade =>
              obtain ⟨other, earlier⟩ := fade
              rw [fade_tickFade hfade] at h
              split at h
              · rename_i hleft
                cases h
                exact (ih hfade).tick hleft
              · cases h

theorem fade_of_going (h : Going history direction timer) (visual : Visual) :
    ((ofVisual visual).touchAll history).fade = some ⟨direction, timer⟩ := by
  obtain ⟨before, millis, since, rfl, hsince, houtlasts, rfl⟩ := h
  have hstarted : (((ofVisual visual).touchAll before).touch (.fade direction millis)).fade =
      some ⟨direction, .start millis⟩ := rfl
  rw [touchAll_append]
  exact (fade_touchAll hstarted hsince).trans (if_pos houtlasts)

end Drawing

/-- The last of these touches brings a fade to its end: it is the first frame since the start of the
fade after which the timer has no time left. -/
def Completes (history : List Touch) (direction : FadeDirection) : Prop :=
  ∃ before millis since elapsed,
    history = before ++ .fade direction millis :: (since ++ [.update elapsed]) ∧
      (∀ touch ∈ since, touch.isFade = false) ∧
      (Countdown.start millis).outlasts (ticks since) = true ∧
      ((Countdown.start millis).after (ticks since ++ [elapsed])).left? = none

/-- Which way the last fade went that came to its end, if any did. -/
inductive LastCompleted : List Touch → Option FadeDirection → Prop
  | start : LastCompleted [] none
  | now {history : List Touch} {touch : Touch} {direction : FadeDirection}
      (h : Completes (history ++ [touch]) direction) :
      LastCompleted (history ++ [touch]) (some direction)
  | before {history : List Touch} {touch : Touch} {last : Option FadeDirection}
      (h : LastCompleted history last)
      (hnot : ∀ direction, ¬ Completes (history ++ [touch]) direction) :
      LastCompleted (history ++ [touch]) last

theorem exists_lastCompleted (history : List Touch) : ∃ last, LastCompleted history last := by
  induction history using List.reverseRecOn with
  | nil => exact ⟨none, .start⟩
  | append_singleton history touch ih =>
      obtain ⟨last, hlast⟩ := ih
      by_cases h : ∃ direction, Completes (history ++ [touch]) direction
      · obtain ⟨direction, hnow⟩ := h
        exact ⟨some direction, .now hnow⟩
      · exact ⟨last, .before hlast fun direction hnow => h ⟨direction, hnow⟩⟩

namespace Drawing

variable {d d' : Drawing} {visual : Visual} {direction : FadeDirection} {history : List Touch}
  {touch : Touch}

/-- Whether a touch completes a fade can be told from the drawing before it. -/
theorem completes_concat_iff (visual : Visual) :
    Completes (history ++ [touch]) direction ↔ ∃ elapsed timer, touch = .update elapsed ∧
      ((ofVisual visual).touchAll history).fade = some ⟨direction, timer⟩ ∧
      (timer.tick elapsed).left? = none := by
  constructor
  · rintro ⟨before, millis, since, elapsed, hhistory, hsince, houtlasts, hover⟩
    rw [← List.cons_append, ← List.append_assoc] at hhistory
    obtain ⟨rfl, htouch⟩ := List.append_inj' hhistory rfl
    exact ⟨elapsed, _, List.singleton_inj.mp htouch,
      fade_of_going ⟨before, millis, since, rfl, hsince, houtlasts, rfl⟩ visual,
      by rwa [← Countdown.after_concat]⟩
  · rintro ⟨elapsed, timer, rfl, hfade, hover⟩
    obtain ⟨before, millis, since, rfl, hsince, houtlasts, rfl⟩ := going_of_fade hfade
    refine ⟨before, millis, since, elapsed, by rw [List.append_assoc]; rfl, hsince, houtlasts, ?_⟩
    rwa [Countdown.after_concat]

/-- What is shown while no fade is going on. -/
def settled : Option FadeDirection → Float32
  | none => 1
  | some direction => direction.final

theorem opacity_touchAll {last : Option FadeDirection} (h : LastCompleted history last)
    (hfade : ((ofVisual visual).touchAll history).fade = none) :
    ((ofVisual visual).touchAll history).opacity = settled last := by
  induction h with
  | start => rfl
  | @now history touch direction hnow =>
      obtain ⟨elapsed, timer, rfl, hgoing, hover⟩ := (completes_concat_iff visual).mp hnow
      rw [touchAll_concat]
      exact opacity_tickFade hgoing hover
  | @before history touch last _ hnot ih =>
      rw [touchAll_concat] at hfade ⊢
      cases touch with
      | fade => cases hfade
      | replace | waitFor | assign =>
          rw [(touch_frame rfl rfl).2] at hfade
          rw [(touch_frame rfl rfl).1]
          exact ih hfade
      | update elapsed =>
          change (((ofVisual visual).touchAll history).tickFade elapsed).fade = none at hfade
          change (((ofVisual visual).touchAll history).tickFade elapsed).opacity = settled last
          cases hgoing : ((ofVisual visual).touchAll history).fade with
          | none =>
              rw [tickFade_of_none hgoing]
              exact ih hgoing
          | some fade =>
              -- A frame that leaves no fade has completed this one, and no fade is completed here.
              obtain ⟨direction, timer⟩ := fade
              have hover : (timer.tick elapsed).left? = none := by
                rw [fade_tickFade hgoing] at hfade
                cases hleft : (timer.tick elapsed).left? with
                | none => rfl
                | some left =>
                    rw [hleft] at hfade
                    cases hfade
              exact absurd ((completes_concat_iff visual).mpr ⟨elapsed, timer, rfl, hgoing, hover⟩)
                (hnot direction)

theorem fadesAlike_of_startFade {later later' : List Touch} (h : ∀ touch ∈ later, touch.isFade = false)
    (h' : ∀ touch ∈ later', touch.isFade = false) (hticks : ticks later = ticks later')
    (hne : ticks later ≠ []) (d d' : Drawing) (direction : FadeDirection) (millis : UInt32) :
    FadesAlike ((d.startFade direction millis).touchAll later)
      ((d'.startFade direction millis).touchAll later') := by
  have hrun := fadesAlike_touchAll h (d.startFade direction millis)
  have hrun' := fadesAlike_touchAll h' (d'.startFade direction millis)
  rw [← hticks] at hrun'
  have hsame : FadesAlike ((d.startFade direction millis).fadeThrough (ticks later))
      ((d'.startFade direction millis).fadeThrough (ticks later)) := by
    cases hlater : ticks later with
    | nil => exact absurd hlater hne
    | cons elapsed ds =>
        have hfade : (d.startFade direction millis).fade = (d'.startFade direction millis).fade := rfl
        have hgoing : (d.startFade direction millis).fade ≠ none := Option.some_ne_none _
        rw [fadeThrough_cons, fadeThrough_cons]
        exact (fadesAlike_tickFade hfade hgoing elapsed).fadeThrough ds
  exact ⟨hrun.opacity.trans (hsame.opacity.trans hrun'.opacity.symm),
    hrun.fade.trans (hsame.fade.trans hrun'.fade.symm)⟩

/-- While no fade is going on, a drawing is all there or not at all: it is there if no fade of it has
come to its end yet, and otherwise as the last one that has left it. That goes for all drawings on the
stage, since scripts do nothing else to them. And a fade begins anew: two drawings, whatever was done
to them, in which a fade of the same direction and length is started show the same after the same
frames, one at least, as long as no other fade is started. -/
theorem fade_lifecycle {σ τ : Type} (host : Host σ) :
    (∀ visual history,
      let d := (ofVisual visual).touchAll history
      (d.fade = none → d.opacity = 0 ∨ d.opacity = 1) ∧
        (∃ last, LastCompleted history last) ∧
        ∀ last, LastCompleted history last → d.fade = none → d.opacity = settled last) ∧
      (∀ s : Interpreter σ τ, s.Reachable host → ∀ name d, s.drawings.get? name = some d →
        ∃ visual history, d = (ofVisual visual).touchAll history) ∧
      ∀ (d d' : Drawing) direction millis later later',
        (∀ touch ∈ later, touch.isFade = false) → (∀ touch ∈ later', touch.isFade = false) →
        ticks later = ticks later' → ticks later ≠ [] →
        let one := (d.startFade direction millis).touchAll later
        let other := (d'.startFade direction millis).touchAll later'
        one.opacity = other.opacity ∧
          one.fade.map (·.direction) = other.fade.map (·.direction) := by
  refine ⟨?_, fun s h => h.touched, ?_⟩
  · intro visual history d
    refine ⟨fun hfade => ?_, exists_lastCompleted history, fun last h => opacity_touchAll h⟩
    obtain ⟨last, hlast⟩ := exists_lastCompleted history
    rw [show d.opacity = settled last from opacity_touchAll hlast hfade]
    match last with
    | none | some .fadeIn => exact .inr rfl
    | some .fadeOut => exact .inl rfl
  · intro d d' direction millis later later' h h' hticks hne one other
    have halike := fadesAlike_of_startFade h h' hticks hne d d' direction millis
    exact ⟨halike.opacity, congrArg (Option.map (·.direction)) halike.fade⟩

def fadedAway : List Touch :=
  [.fade .fadeOut 400, .update ⟨100000000⟩, .replace ⟨"sky", .one, 0⟩, .update ⟨500000000⟩]

theorem fade_lifecycle_fadedAway :
    ((ofVisual ⟨"sea", .one, 0⟩).touchAll fadedAway).opacity = 0 ∧
      (∀ d, Interpreter.atReload.drawings.get? "door" = some d →
        ∃ visual history, d = (ofVisual visual).touchAll history) ∧
      ∀ d d' : Drawing,
        ((d.startFade .fadeIn 400).touchAll [.update ⟨100000000⟩]).opacity =
          ((d'.startFade .fadeIn 400).touchAll
            [.waitFor .one, .update ⟨100000000⟩]).opacity := by
  have hcompletes : Completes fadedAway .fadeOut :=
    ⟨[], 400, [.update ⟨100000000⟩, .replace ⟨"sky", .one, 0⟩], ⟨500000000⟩, rfl, by decide,
      by decide +kernel, by decide +kernel⟩
  have hlast : LastCompleted fadedAway (some .fadeOut) :=
    @LastCompleted.now fadedAway.dropLast (.update ⟨500000000⟩) .fadeOut hcompletes
  have hnone : ((ofVisual ⟨"sea", .one, 0⟩).touchAll fadedAway).fade = none := by
    decide +kernel
  have hreachable : Interpreter.atReload.Reachable Recording.host :=
    (Interpreter.Reachable.fresh _).run _
  obtain ⟨hstill, htouched, hsame⟩ := fade_lifecycle (τ := Unit) Recording.host
  obtain ⟨-, -, hopacity⟩ := hstill ⟨"sea", .one, 0⟩ fadedAway
  exact ⟨hopacity _ hlast hnone, htouched _ hreachable "door", fun d d' =>
    (hsame d d' .fadeIn 400 [.update ⟨100000000⟩] [.waitFor .one, .update ⟨100000000⟩]
      (by decide) (by decide) rfl (List.cons_ne_nil _ _)).1⟩

end Drawing

end Cutscene
