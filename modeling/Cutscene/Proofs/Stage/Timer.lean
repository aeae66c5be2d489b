import Cutscene.Proofs.Stage.Millis
import Cutscene.Proofs.Stage.Handling

namespace Cutscene

open Number

namespace Countdown

variable {c : Countdown} {d : Duration} {ds : List Duration} {n k : ℕ} {r total : ℚ}

/-- The timer is not brought to its end by any of these frames. -/
def lasts (c : Countdown) : List Duration → Bool
  | [] => true
  | d :: ds => !(c.tick d).finished && (c.tick d).lasts ds

theorem finished_iff (h : Amounts c.remaining r) : c.finished = true ↔ r ≤ 0 :=
  decide_eq_true_iff.trans h.le_zero

theorem amounts_start (n : UInt32) : Amounts (start n).remaining n.toNat :=
  amounts_of_lt (n.toNat_lt.trans (by decide))

/-- What a timer of `n` milliseconds has left after `k` frames, `total` milliseconds in all. -/
structure Nearly (n k : ℕ) (total r : ℚ) : Prop where
  nonneg : 0 ≤ r
  pos : 0 < k → 0 < r
  le : r ≤ n
  near : |r - (n - total)| ≤ k * n / 2 ^ 53 + total / 2 ^ 51

theorem nearly_start (n : ℕ) : Nearly n 0 0 n where
  nonneg := Nat.cast_nonneg n
  pos := nofun
  le := le_rfl
  near := by norm_num

theorem nearly_tick (hc : Amounts c.remaining r) (h : Nearly n k total r) (hn : n < 2 ^ 32)
    (hd : d.Fits) :
    ((c.tick d).finished = true →
      n ≤ total + d.millis + (k * n / 2 ^ 53 + (total + d.millis) / 2 ^ 51)) ∧
    ((c.tick d).finished = false →
      ∃ r', Amounts (c.tick d).remaining r' ∧ Nearly n (k + 1) (total + d.millis) r') := by
  obtain ⟨t, htick, ht⟩ := d.near_tick hd
  obtain ⟨hnonneg, -, hle, hnear⟩ := h
  have hn' : (n : ℚ) < 2 ^ 32 := by exact_mod_cast hn
  have hmillis := d.millis_le hd
  have hmillis' := d.millis_nonneg
  rw [abs_le] at ht hnear
  obtain ⟨r', hr', hleft⟩ := hc.sub htick (lt_top (by
    rw [abs_le]
    constructor <;> linarith))
  have hfinished := @finished_iff (c.tick d) r' hleft
  obtain ⟨n₁, hn₁⟩ := hc.multiple
  obtain ⟨n₂, hn₂⟩ := htick.multiple
  have hrounded : |r' - (r - t)| ≤ |r - t| / 2 ^ 53 :=
    hr'.near_of_multiple (n := n₁ - n₂) (by rw [hn₁, hn₂, Int.cast_sub, sub_mul])
  constructor
  · intro hover
    have hr'' := hfinished.mp hover
    have hdone : r ≤ t := by
      by_contra hlt
      have hpos : 0 < r - t := by linarith
      rw [abs_of_pos hpos, abs_le] at hrounded
      linarith
    linarith
  · intro hgoes
    have hr'' : 0 < r' := by
      rw [← not_le, ← hfinished, hgoes]
      exact Bool.false_ne_true
    have hlt : 0 < r - t := by
      by_contra hdone
      exact absurd (hr'.le storable_zero (not_lt.mp hdone)) (not_le.mpr hr'')
    rw [abs_of_pos hlt, abs_le] at hrounded
    refine ⟨r', hleft, hr''.le, fun _ => hr'', ?_, ?_⟩
    · exact (hr'.le hc.storable (by linarith)).trans hle
    · rw [abs_le]
      push_cast
      constructor <;> linarith

theorem sum_millis (ds : List Duration) :
    (ds.map Duration.millis).sum = (ds.map Duration.nanoseconds).sum / 10 ^ 6 := by
  induction ds with
  | nil => norm_num
  | cons d ds ih =>
      rw [List.map_cons, List.sum_cons, ih, List.map_cons, List.sum_cons, Duration.millis]
      push_cast
      ring

theorem lasts_of_early (hds : ∀ d ∈ ds, d.Fits) (hn : n < 2 ^ 32) (hc : Amounts c.remaining r)
    (h : Nearly n k total r)
    (hearly : total + (ds.map Duration.millis).sum + ((k + ds.length) * n / 2 ^ 53 +
      (total + (ds.map Duration.millis).sum) / 2 ^ 51) < n) : c.lasts ds = true := by
  induction ds generalizing c k total r with
  | nil => rfl
  | cons d ds ih =>
      obtain ⟨hd, hds⟩ := List.forall_mem_cons.mp hds
      obtain ⟨hover, hgoes⟩ := nearly_tick hc h hn hd
      have hrest : 0 ≤ (ds.map Duration.millis).sum := by
        rw [sum_millis]
        positivity
      rw [List.map_cons, List.sum_cons, List.length_cons] at hearly
      push_cast at hearly
      have hframes : (0 : ℚ) ≤ (ds.length + 1) * n := by positivity
      cases hfinished : (c.tick d).finished with
      | true => linarith [hover hfinished]
      | false =>
          obtain ⟨r', hleft, hnearly⟩ := hgoes hfinished
          rw [lasts, hfinished]
          refine ih hds hleft hnearly ?_
          push_cast
          linarith

theorem early_of_lasts (hds : ∀ d ∈ ds, d.Fits) (hn : n < 2 ^ 32) (hc : Amounts c.remaining r)
    (h : Nearly n k total r) (hk : 0 < k + ds.length) (hlasts : c.lasts ds = true) :
    total + (ds.map Duration.millis).sum < n + ((k + ds.length) * n / 2 ^ 53 +
      (total + (ds.map Duration.millis).sum) / 2 ^ 51) := by
  induction ds generalizing c k total r with
  | nil =>
      have hpos := h.pos hk
      have hnear := h.near
      rw [abs_le] at hnear
      rw [List.map_nil, List.sum_nil, List.length_nil]
      push_cast
      linarith
  | cons d ds ih =>
      obtain ⟨hd, hds⟩ := List.forall_mem_cons.mp hds
      rw [lasts, Bool.and_eq_true, Bool.not_eq_true'] at hlasts
      obtain ⟨hfinished, hlasts⟩ := hlasts
      obtain ⟨r', hleft, hnearly⟩ := (nearly_tick hc h hn hd).2 hfinished
      have hrest := ih hds hleft hnearly (by omega) hlasts
      rw [List.map_cons, List.sum_cons, List.length_cons]
      push_cast at hrest ⊢
      linarith

theorem lasts_iff_of_whole {left : ℕ} (hds : ∀ d ∈ ds, ∃ m < 1000, d = ⟨m * 1000000⟩)
    (hleft : left < 2 ^ 53) (hc : Amounts c.remaining left) :
    c.lasts ds = true ↔ ds = [] ∨ (ds.map Duration.nanoseconds).sum < left * 1000000 := by
  induction ds generalizing c left with
  | nil => exact ⟨fun _ => .inl rfl, fun _ => rfl⟩
  | cons d ds ih =>
      obtain ⟨⟨m, hm, rfl⟩, hrest⟩ := List.forall_mem_cons.mp hds
      have hdist : |((left : ℤ) - m : ℤ)| < 2 ^ 53 := by
        rw [abs_lt]
        omega
      have hcast : (left : ℚ) - m = ((left : ℤ) - m : ℤ) := by push_cast; rfl
      have hdist' : |(left : ℚ) - m| < 2 ^ 53 := by
        rw [hcast]
        exact_mod_cast hdist
      obtain ⟨r, hr, hticked⟩ := hc.sub (Duration.amounts_tick hm) (lt_top (by linarith))
      rw [hcast] at hr
      obtain rfl := hr.exact (storable_int hdist)
      have hfinished : (c.tick ⟨m * 1000000⟩).finished = true ↔ left ≤ m := by
        rw [@finished_iff (c.tick _) _ hticked, ← hcast, sub_nonpos, Nat.cast_le]
      rw [lasts, List.map_cons, List.sum_cons]
      change _ ↔ _ ∨ m * 1000000 + (ds.map Duration.nanoseconds).sum < _
      rcases Nat.lt_or_ge m left with hlt | hge
      · have hgoes : (c.tick ⟨m * 1000000⟩).finished = false := by
          rw [← Bool.not_eq_true, hfinished]
          omega
        have hleft' : Amounts (c.tick ⟨m * 1000000⟩).remaining (left - m : ℕ) := by
          rw [Nat.cast_sub hlt.le, hcast]
          exact hticked
        rw [hgoes, Bool.not_false, Bool.true_and, ih hrest (by omega) hleft', Nat.sub_mul]
        constructor
        · rintro (rfl | hsum)
          · exact .inr (by rw [List.map_nil, List.sum_nil]; omega)
          · exact .inr (by omega)
        · rintro (hnil | hsum)
          · cases hnil
          · exact .inr (by omega)
      · rw [hfinished.mpr hge, Bool.not_true, Bool.false_and]
        constructor
        · nofun
        · rintro (hnil | hsum)
          · cases hnil
          · omega

/-- A longer frame may be rounded to less, which leaves a timer of the same length going. -/
example : (start 1001).lasts [⟨1001 * 1000000⟩] = true := by decide +kernel

theorem lasts_start_of_early {millis : UInt32} (hds : ∀ d ∈ ds, d.Fits)
    (h : (2 ^ 53 + 4) * (ds.map Duration.nanoseconds).sum + ds.length * (millis.toNat * 1000000) <
      2 ^ 53 * (millis.toNat * 1000000)) : (start millis).lasts ds = true := by
  refine lasts_of_early hds millis.toNat_lt (amounts_start millis) (nearly_start _) ?_
  rw [sum_millis]
  generalize (ds.map Duration.nanoseconds).sum = total at h ⊢
  have h' : ((2 ^ 53 + 4) * total + ds.length * (millis.toNat * 1000000) : ℚ) <
      2 ^ 53 * (millis.toNat * 1000000) := by exact_mod_cast h
  rw [zero_add, Nat.cast_zero, zero_add]
  linarith

theorem not_lasts_start_of_late {millis : UInt32} (hds : ∀ d ∈ ds, d.Fits) (hne : ds ≠ [])
    (h : (2 ^ 53 + ds.length) * (millis.toNat * 1000000) + 4 * (ds.map Duration.nanoseconds).sum ≤
      2 ^ 53 * (ds.map Duration.nanoseconds).sum) : (start millis).lasts ds = false := by
  rw [← Bool.not_eq_true]
  intro hlasts
  have hearly := early_of_lasts hds millis.toNat_lt (amounts_start millis) (nearly_start _)
    (by rw [Nat.zero_add]; exact List.length_pos_iff.mpr hne) hlasts
  rw [sum_millis] at hearly
  generalize (ds.map Duration.nanoseconds).sum = total at h hearly
  have h' : ((2 ^ 53 + ds.length) * (millis.toNat * 1000000) + 4 * total : ℚ) ≤
      2 ^ 53 * total := by exact_mod_cast h
  rw [zero_add, Nat.cast_zero, zero_add] at hearly
  linarith

end Countdown

namespace Interpreter

variable {σ τ : Type} {host : Host σ} {elapsed : Duration} {s met now : Interpreter σ τ}
  {i : Instruction} {countdown : Countdown} {past frames : List Duration}

theorem Held.due_wait_iff (h : Held met now i (.wait countdown) past) (elapsed : Duration) :
    Due host met now i past elapsed (.wait countdown) ↔
      ((countdown.after past).tick elapsed).finished = true := by
  obtain ⟨millis, hmillis, rfl⟩ := h.keeps
  rw [← Countdown.after_concat]
  constructor
  · rintro ⟨other, hother, hfinished⟩
    obtain rfl : other = millis := Except.ok.inj (hother.symm.trans hmillis)
    exact hfinished
  · intro hfinished
    exact ⟨millis, hmillis, hfinished⟩

theorem Held.run_of_lasts (h : Held met now i (.wait countdown) past) (host : Host σ)
    (hlasts : (countdown.after past).lasts frames = true) :
    Held met (now.run host (frames.map .update)) i (.wait countdown) (past ++ frames) := by
  induction frames generalizing now past with
  | nil =>
      rw [List.append_nil]
      exact h
  | cons elapsed frames ih =>
      rw [Countdown.lasts, Bool.and_eq_true, Bool.not_eq_true'] at hlasts
      obtain ⟨hfinished, hlasts⟩ := hlasts
      have hdue : ¬ Due host met now i past elapsed (.wait countdown) := by
        rw [h.due_wait_iff, hfinished]
        exact Bool.false_ne_true
      have hheld := (h.update_of_not_due hdue).2
      rw [← Countdown.after_concat] at hlasts
      have hrest := ih hheld hlasts
      rw [List.append_assoc] at hrest
      exact hrest

theorem Held.run_of_not_lasts (h : Held met now i (.wait countdown) past) (host : Host σ)
    (hlasts : (countdown.after past).lasts frames = false) :
    met.session.index < (now.run host (frames.map .update)).session.index := by
  induction frames generalizing now past with
  | nil => cases hlasts
  | cons elapsed frames ih =>
      cases hfinished : ((countdown.after past).tick elapsed).finished with
      | false =>
          have hdue : ¬ Due host met now i past elapsed (.wait countdown) := by
            rw [h.due_wait_iff, hfinished]
            exact Bool.false_ne_true
          have hheld := (h.update_of_not_due hdue).2
          rw [Countdown.lasts, hfinished, Bool.not_false, Bool.true_and,
            ← Countdown.after_concat] at hlasts
          exact ih hheld hlasts
      | true =>
          have hdue : Due host met now i past elapsed (.wait countdown) :=
            (h.due_wait_iff elapsed).mpr hfinished
          have hsession := (h.update_of_due rfl hdue).2
          have hrest : (now.update host elapsed).1.session.index ≤
              ((now.update host elapsed).1.run host (frames.map .update)).session.index := by
            apply index_le_run
            intro call hcall
            obtain ⟨d, -, rfl⟩ := List.mem_map.mp hcall
            rfl
          rw [hsession] at hrest
          exact hrest

theorem held_wait {millis : UInt32} (hsorted : s.drawings.Sorted)
    (hcarries : CarriesOut host elapsed s i) (hcommand : i.command = .builtin .wait)
    (hmillis : i.uints[0]? = some millis) :
    Held (s.settle host elapsed) (s.update host elapsed).1 i (.wait (.start millis)) [] := by
  obtain ⟨hactive, hpending, hi⟩ := carriesOut_iff.mp hcarries
  have hread : (floatOfNat millis.toNat).toUInt32 = millis :=
    Amounts.toUInt32 (amounts_of_lt (millis.toNat_lt.trans (by decide)))
  have haction : Action.ofInstruction i .wait = .ok (.suspend (.wait (.start millis))) := by
    have hnumber : i.number 0 = .ok (floatOfNat millis.toNat) := by
      rw [Instruction.number, hmillis]
    rw [Action.ofInstruction, hnumber]
    change Except.ok (Action.suspend (.wait (.start (floatOfNat millis.toNat).toUInt32))) = _
    rw [hread]
  have hsuspended : (conclude ((s.settle host elapsed).dispatch host i)).session.pending =
      some (.wait (.start millis)) := by
    rw [dispatch, carryOut_of_action hcommand haction]
    rfl
  rw [(update_of_carriesOut hcarries).2.1]
  exact held_dispatch (sorted_settle host elapsed hsorted) (active_settle.trans hactive) hpending hi
    hsuspended

/-- A wait is over in the frame that brings the time since it was met to the length of it, but for
what is lost to rounding. The time is in nanoseconds. A wait is still on while the time is less by
more than a few parts in 2⁵³ of the time itself and of the wait once for each frame, and it is over
as soon as the time is more by as much. If the frames are whole milliseconds shorter than a second,
nothing is lost. -/
theorem Reachable.wait_keeps_time (h : Reachable host s) {millis : UInt32}
    (hcarries : CarriesOut host elapsed s i) (hcommand : i.command = .builtin .wait)
    (hmillis : i.uints[0]? = some millis) (hne : frames ≠ [])
    (hframes : ∀ d ∈ frames, d.Fits) :
    let waiting := (s.update host elapsed).1
    let now := waiting.run host (frames.map .update)
    let lasts := now.session =
      { waiting.session with
        pending := some (.wait ((Countdown.start millis).after frames)) }
    let ended := waiting.session.index < now.session.index
    let wait := millis.toNat * 1000000
    let time := (frames.map Duration.nanoseconds).sum
    ((2 ^ 53 + 4) * time + frames.length * wait < 2 ^ 53 * wait → lasts) ∧
      ((2 ^ 53 + frames.length) * wait + 4 * time ≤ 2 ^ 53 * time → ended) ∧
      ((∀ d ∈ frames, ∃ m < 1000, d = ⟨m * 1000000⟩) →
        (time < wait → lasts) ∧ (wait ≤ time → ended)) := by
  intro waiting now lasts ended wait time
  have hheld := held_wait h.sorted hcarries hcommand hmillis
  have hlasts (hrun : (Countdown.start millis).lasts frames = true) : lasts := by
    have hstill := (hheld.run_of_lasts host hrun).session
    rw [List.nil_append, Suspension.afterAll_wait] at hstill
    change now.session = _
    rw [hheld.session]
    exact hstill
  have hended (hrun : (Countdown.start millis).lasts frames = false) : ended := by
    have hpast := hheld.run_of_not_lasts host hrun
    rw [← hheld.index] at hpast
    exact hpast
  refine ⟨fun hearly => hlasts (Countdown.lasts_start_of_early hframes hearly),
    fun hlate => hended (Countdown.not_lasts_start_of_late hframes hne hlate), fun hwhole => ?_⟩
  have hiff := Countdown.lasts_iff_of_whole hwhole (millis.toNat_lt.trans (by decide))
    (Countdown.amounts_start millis)
  rw [or_iff_right hne] at hiff
  refine ⟨fun hearly => hlasts (hiff.mpr hearly), fun hlate => hended ?_⟩
  rw [← Bool.not_eq_true, hiff]
  exact Nat.not_lt.mpr hlate

def atWait : Interpreter Recording Unit :=
  let fresh : Interpreter Recording Unit := { world := .start [] Recording.defaultResolution }
  let script : List Instruction := [{ command := .builtin .wait, uints := [500] }]
  fresh.answer Recording.host (.start script none 0)

theorem wait_keeps_time_atWait :
    let waiting := (atWait.update Recording.host ⟨0⟩).1
    let frames : List Duration := [⟨200 * 1000000⟩, ⟨300 * 1000000⟩]
    CarriesOut Recording.host ⟨0⟩ atWait { command := .builtin .wait, uints := [500] } ∧
      (∀ d ∈ frames, d.Fits) ∧
      (waiting.run Recording.host ((frames.take 1).map .update)).session.pending =
        some (.wait ((Countdown.start 500).after (frames.take 1))) ∧
      waiting.session.index < (waiting.run Recording.host (frames.map .update)).session.index := by
  intro waiting frames
  have hreachable : Reachable Recording.host atWait := (Reachable.fresh _).answer (.start _ _ _)
  have hcarries : CarriesOut Recording.host ⟨0⟩ atWait
      { command := .builtin .wait, uints := [500] } := by
    rw [carriesOut_iff]
    decide +kernel
  have hfits : ∀ d ∈ frames, d.Fits := by
    intro d hd
    simp only [frames, List.mem_cons, List.not_mem_nil, or_false] at hd
    rcases hd with rfl | rfl <;> (rw [Duration.Fits]; decide)
  have hwhole : ∀ d ∈ frames, ∃ m < 1000, d = ⟨m * 1000000⟩ := by
    intro d hd
    simp only [frames, List.mem_cons, List.not_mem_nil, or_false] at hd
    rcases hd with rfl | rfl
    · exact ⟨200, by decide, rfl⟩
    · exact ⟨300, by decide, rfl⟩
  have hfirst : ∀ d ∈ frames.take 1, d ∈ frames := fun d => List.mem_of_mem_take
  obtain ⟨-, -, hone⟩ := hreachable.wait_keeps_time hcarries rfl rfl
    (by decide : frames.take 1 ≠ []) (fun d hd => hfits d (hfirst d hd))
  obtain ⟨-, -, hboth⟩ := hreachable.wait_keeps_time hcarries rfl rfl (by decide : frames ≠ []) hfits
  have hlasts := (hone fun d hd => hwhole d (hfirst d hd)).1 (by decide)
  have hended := (hboth hwhole).2 (by decide)
  -- The states are spelled out for the facts about them to be found as they are.
  dsimp only [waiting]
  exact ⟨hcarries, hfits, congrArg Session.pending hlasts, hended⟩

end Interpreter

end Cutscene
