import Cutscene.Proofs.Stage.Release
import Mathlib.Data.List.Induction

namespace Cutscene

namespace Motion

inductive Move where
  | advance (dt : Float32)
  | integrate (dt : Float32)
  | place (position : Vec)
  | steer (velocity : Vec)
  | push (acceleration : Vec)
  | waitFor (target : Vec)
  | cancelWait

namespace Move

def isRegistration : Move → Bool
  | .waitFor _ => true
  | _ => false

/-- The move neither registers a wait nor takes one back. -/
def isFree : Move → Bool
  | .waitFor _ | .cancelWait => false
  | _ => true

end Move

/-- The part of a move that has nothing to do with waits. -/
def drift (m : Motion) : Move → Motion
  | .advance dt | .integrate dt => m.integrate dt
  | .place position => { m with position }
  | .steer velocity => { m with velocity }
  | .push acceleration => { m with acceleration }
  | .waitFor _ | .cancelWait => m

def make (m : Motion) : Move → Motion
  | .advance dt => (m.advance dt).1
  | .waitFor target => m.waitFor target
  | .cancelWait => m.cancelWait
  | move => m.drift move

def driftAll (moves : List Move) (m : Motion) : Motion := moves.foldl drift m

def makeAll (moves : List Move) (m : Motion) : Motion := moves.foldl make m

/-- Whether a body on its way with this velocity has come as far as the target, or farther. -/
def Past (velocity target position : Float32) : Prop :=
  if 0 ≤ velocity then target ≤ position else position ≤ target

/-- Some tick among these moves brings the body to the target or past it, on both axes and in the
directions of its velocity at the outset. -/
def Reaches (m : Motion) (target : Vec) (moves : List Move) : Prop :=
  ∃ before dt, before ++ [.advance dt] <+: moves ∧
    Past m.velocity.x target.x (m.driftAll (before ++ [.advance dt])).position.x ∧
    Past m.velocity.y target.y (m.driftAll (before ++ [.advance dt])).position.y

/-- What has become of a body since it was told of a place. -/
inductive Pursuit (m : Motion) (target : Vec) (moves : List Move) : Motion → Prop
  | underWay (h : ¬ m.Reaches target moves) :
      Pursuit m target moves
        { m.driftAll moves with wait := some ⟨target, 0 ≤ m.velocity.x, 0 ≤ m.velocity.y⟩ }
  | there (h : m.Reaches target moves) :
      Pursuit m target moves { m.driftAll moves with wait := none }

variable {m : Motion} {target : Vec} {dt : Float32} {move : Move} {moves before since : List Move}

theorem driftAll_concat (moves : List Move) (move : Move) (m : Motion) :
    m.driftAll (moves ++ [move]) = (m.driftAll moves).drift move := List.foldl_append

theorem makeAll_append (moves moves' : List Move) (m : Motion) :
    m.makeAll (moves ++ moves') = (m.makeAll moves).makeAll moves' := List.foldl_append

theorem makeAll_cons (move : Move) (moves : List Move) (m : Motion) :
    m.makeAll (move :: moves) = (m.make move).makeAll moves := List.foldl_cons ..

theorem makeAll_concat (moves : List Move) (move : Move) (m : Motion) :
    m.makeAll (moves ++ [move]) = (m.makeAll moves).make move := List.foldl_append

theorem drift_wait (wait : Option PositionWait) (move : Move) (m : Motion) :
    { m with wait }.drift move = { m.drift move with wait } := by
  cases move <;> rfl

theorem past_iff (velocity target position : Float32) :
    PositionWait.past (0 ≤ velocity) target position = true ↔ Past velocity target position := by
  rw [PositionWait.past, Past]
  by_cases h : 0 ≤ velocity
  · rw [if_pos h, if_pos (decide_eq_true h), decide_eq_true_eq]
  · rw [if_neg h, if_neg (by rwa [decide_eq_true_eq]), decide_eq_true_eq]

theorem reached_capture_iff (target velocity position : Vec) :
    (PositionWait.capture target velocity).reached position = true ↔
      Past velocity.x target.x position.x ∧ Past velocity.y target.y position.y := by
  rw [PositionWait.reached, Bool.and_eq_true]
  exact and_congr (past_iff ..) (past_iff ..)

theorem not_reaches_nil : ¬ m.Reaches target [] := by
  rintro ⟨before, dt, hprefix, -⟩
  exact List.concat_ne_nil _ _ (List.prefix_nil.mp hprefix)

theorem reaches_concat_iff : m.Reaches target (moves ++ [move]) ↔
    m.Reaches target moves ∨ ∃ dt, move = .advance dt ∧
      (PositionWait.capture target m.velocity).reached
        ((m.driftAll moves).integrate dt).position = true := by
  simp only [Reaches, List.prefix_concat_iff, reached_capture_iff]
  constructor
  · rintro ⟨before, dt, hlast | hprefix, hpast⟩
    · obtain ⟨rfl, hmove⟩ := List.append_inj' hlast rfl
      rw [driftAll_concat] at hpast
      exact .inr ⟨dt, (List.singleton_inj.mp hmove).symm, hpast⟩
    · exact .inl ⟨before, dt, hprefix, hpast⟩
  · rintro (⟨before, dt, hprefix, hpast⟩ | ⟨dt, rfl, hpast⟩)
    · exact ⟨before, dt, .inr hprefix, hpast⟩
    · refine ⟨moves, dt, .inl rfl, ?_⟩
      rw [driftAll_concat]
      exact hpast

theorem reaches_concat_of_not_advance (h : ∀ dt, move ≠ .advance dt) :
    m.Reaches target (moves ++ [move]) ↔ m.Reaches target moves := by
  rw [reaches_concat_iff]
  exact or_iff_left fun ⟨dt, hmove, _⟩ => h dt hmove

theorem advance_of_wait_eq_none (h : m.wait = none) (dt : Float32) :
    m.advance dt = (m.integrate dt, false) := by
  apply advance_of_not_arrived
  change m.wait.any _ = false
  rw [h]
  rfl

/-- A tick says that the place is reached if it is the first one that gets there. -/
theorem Pursuit.advance_iff_reaches {now : Motion} (h : Pursuit m target moves now) (dt : Float32) :
    (now.advance dt).2 = true ↔
      ¬ m.Reaches target moves ∧ m.Reaches target (moves ++ [.advance dt]) := by
  rw [advance_arrived, reaches_concat_iff]
  cases h with
  | there hreaches => exact ⟨nofun, fun ⟨hnot, _⟩ => absurd hreaches hnot⟩
  | underWay hnot =>
      refine ⟨fun hpast => ⟨hnot, .inr ⟨dt, rfl, hpast⟩⟩, ?_⟩
      rintro ⟨-, hreaches | ⟨_, hdt, hpast⟩⟩
      · exact absurd hreaches hnot
      · cases hdt
        exact hpast

theorem Pursuit.drift {now : Motion} (h : Pursuit m target moves now)
    (hsame : m.Reaches target (moves ++ [move]) ↔ m.Reaches target moves) :
    Pursuit m target (moves ++ [move]) (now.drift move) := by
  cases h with
  | underWay hnot =>
      have hnext := Pursuit.underWay (hsame.not.mpr hnot)
      rwa [driftAll_concat, ← drift_wait] at hnext
  | there hreaches =>
      have hnext := Pursuit.there (hsame.mpr hreaches)
      rwa [driftAll_concat, ← drift_wait] at hnext

theorem Pursuit.make {now : Motion} (h : Pursuit m target moves now) (hfree : move.isFree = true) :
    Pursuit m target (moves ++ [move]) (now.make move) := by
  cases move with
  | waitFor | cancelWait => cases hfree
  | integrate | place | steer | push => exact h.drift (reaches_concat_of_not_advance nofun)
  | advance dt =>
      -- Both ways the body has moved on; whether the wait is over now is what the tick has answered.
      have hiff := h.advance_iff_reaches dt
      rw [advance_arrived] at hiff
      change Pursuit m target _ (now.advance dt).1
      cases harrived : (now.integrate dt).arrived with
      | true =>
          obtain ⟨hnot, hreaches⟩ := hiff.mp harrived
          have hnext := Pursuit.there hreaches
          rw [driftAll_concat] at hnext
          rw [advance_of_arrived harrived]
          cases h with
          | underWay => exact hnext
          | there hbefore => exact absurd hbefore hnot
      | false =>
          rw [advance_of_not_arrived harrived]
          refine h.drift ⟨fun hreaches => ?_, fun hreaches => reaches_concat_iff.mpr (.inl hreaches)⟩
          apply Classical.byContradiction
          intro hnot
          exact Bool.false_ne_true (harrived.symm.trans (hiff.mpr ⟨hnot, hreaches⟩))

/-- However a body is moved that was told of a place, its wait does not change before it is over. -/
theorem pursuit (m : Motion) (target : Vec) (h : ∀ move ∈ moves, move.isFree = true) :
    Pursuit m target moves ((m.waitFor target).makeAll moves) := by
  induction moves using List.reverseRecOn with
  | nil => exact .underWay not_reaches_nil
  | append_singleton moves move ih =>
      obtain ⟨hbefore, hlast⟩ := List.forall_mem_append.mp h
      rw [makeAll_concat]
      exact (ih hbefore).make (hlast move List.mem_cons_self)

theorem wait_make_of_none (h : m.wait = none) (hmove : move.isRegistration = false) :
    (m.make move).wait = none := by
  cases move with
  | waitFor => cases hmove
  | integrate | place | steer | push => exact h
  | cancelWait => rfl
  | advance dt =>
      change (m.advance dt).1.wait = none
      rw [advance_of_wait_eq_none h]
      exact h

theorem wait_makeAll_of_none (h : m.wait = none)
    (hmoves : ∀ move ∈ moves, move.isRegistration = false) : (m.makeAll moves).wait = none := by
  induction moves generalizing m with
  | nil => exact h
  | cons move moves ih =>
      obtain ⟨hmove, hmoves⟩ := List.forall_mem_cons.mp hmoves
      rw [makeAll_cons]
      exact ih (wait_make_of_none h hmove) hmoves

theorem exists_registration (h : m.wait = none) (moves : List Move)
    (hwait : (m.makeAll moves).wait ≠ none) :
    ∃ before target since, moves = before ++ .waitFor target :: since ∧
      ∀ move ∈ since, move.isFree = true := by
  induction moves using List.reverseRecOn with
  | nil => exact absurd h hwait
  | append_singleton moves move ih =>
      rw [makeAll_concat] at hwait
      cases move with
      | waitFor target => exact ⟨moves, target, [], rfl, List.forall_mem_nil _⟩
      | cancelWait => exact absurd rfl hwait
      | advance | integrate | place | steer | push =>
          obtain ⟨before, target, since, rfl, hsince⟩ :=
            ih fun hnone => hwait (wait_make_of_none hnone rfl)
          refine ⟨before, target, since ++ [_], by rw [List.append_assoc]; rfl, ?_⟩
          exact List.forall_mem_append.mpr ⟨hsince, List.forall_mem_singleton.mpr rfl⟩

theorem wait_advance_of_arrived (h : (m.advance dt).2 = true) : (m.advance dt).1.wait = none := by
  rw [advance_arrived] at h
  rw [advance_of_arrived h]
  rfl

theorem advance_makeAll_iff (h : m.wait = none) (moves : List Move) (dt : Float32) :
    ((m.makeAll moves).advance dt).2 = true ↔
      ∃ before target since, moves = before ++ .waitFor target :: since ∧
        (∀ move ∈ since, move.isFree = true) ∧ ¬ (m.makeAll before).Reaches target since ∧
        (m.makeAll before).Reaches target (since ++ [.advance dt]) := by
  have hpursuit {before since : List Move} {target : Vec}
      (hsince : ∀ move ∈ since, move.isFree = true) : Pursuit (m.makeAll before) target since
        (m.makeAll (before ++ .waitFor target :: since)) := by
    rw [makeAll_append, makeAll_cons]
    exact pursuit _ target hsince
  constructor
  · intro harrived
    obtain ⟨before, target, since, rfl, hsince⟩ := exists_registration h moves fun hnone => by
      rw [advance_of_wait_eq_none hnone] at harrived
      exact Bool.false_ne_true harrived
    have hfirst := ((hpursuit hsince).advance_iff_reaches dt).mp harrived
    exact ⟨before, target, since, rfl, hsince, hfirst⟩
  · rintro ⟨before, target, since, rfl, hsince, hfirst⟩
    exact ((hpursuit hsince).advance_iff_reaches dt).mpr hfirst

/-- A body that is told of a place, whatever it waited for before, keeps the place and the directions
of its velocity for as long as no tick has brought it there; the first one that does says so. After
that the wait is gone, and no tick says so again before the body is told of a place once more. In the
whole life of a body a tick says so of no place but the last one it was told of, of that one only if
the wait was not taken back, and only the first time. Standing still is on the way to the right and
down. -/
theorem wait_lifecycle :
    (∀ (m : Motion) target moves, (∀ move ∈ moves, move.isFree = true) →
      let now := (m.waitFor target).makeAll moves
      Pursuit m target moves now ∧ ∀ dt, (now.advance dt).2 = true ↔
        ¬ m.Reaches target moves ∧ m.Reaches target (moves ++ [.advance dt])) ∧
      (∀ (m : Motion) dt, (m.advance dt).2 = true → (m.advance dt).1.wait = none ∧
        ∀ moves, (∀ move ∈ moves, move.isRegistration = false) →
          ∀ dt', (((m.advance dt).1.makeAll moves).advance dt').2 = false) ∧
      (∀ (m : Motion) wait target, { m with wait }.waitFor target = m.waitFor target) ∧
      (∀ m : Motion, m.wait = none → ∀ moves dt, ((m.makeAll moves).advance dt).2 = true ↔
        ∃ before target since, moves = before ++ .waitFor target :: since ∧
          (∀ move ∈ since, move.isFree = true) ∧ ¬ (m.makeAll before).Reaches target since ∧
          (m.makeAll before).Reaches target (since ++ [.advance dt])) ∧
      (0 : Float32) ≤ 0 ∧ (0 : Float32) ≤ -0 := by
  refine ⟨?_, ?_, fun _ _ _ => rfl, fun m hnone => advance_makeAll_iff hnone, by decide +kernel,
    by decide +kernel⟩
  · intro m target moves hfree now
    have hpursuit : Pursuit m target moves now := pursuit m target hfree
    exact ⟨hpursuit, hpursuit.advance_iff_reaches⟩
  · intro m dt harrived
    have hnone := wait_advance_of_arrived harrived
    refine ⟨hnone, fun moves hmoves dt' => ?_⟩
    rw [advance_of_wait_eq_none (wait_makeAll_of_none hnone hmoves)]

def detour : List Move :=
  [.steer ⟨40, 0⟩, .advance 1, .place ⟨130, 0⟩, .steer ⟨-40, 0⟩]

theorem wait_lifecycle_detour :
    let body : Motion := { position := ⟨200, 0⟩, velocity := ⟨-40, 0⟩ }
    let target : Vec := ⟨100, 0⟩
    let now := (body.waitFor target).makeAll detour
    Pursuit body target detour now ∧ ¬ body.Reaches target detour ∧
      body.Reaches target (detour ++ [.advance 1]) ∧
      ((body.makeAll (.waitFor target :: detour)).advance 1).2 = true ∧
      ∀ dt, (((now.advance 1).1.makeAll detour).advance dt).2 = false := by
  intro body target now
  obtain ⟨hwait, honce, -, hhistory, -⟩ := wait_lifecycle
  have hfree : ∀ move ∈ detour, move.isFree = true := by decide
  obtain ⟨hpursuit, hfirst⟩ := hwait body target detour hfree
  have harrived : (now.advance 1).2 = true := by decide +kernel
  obtain ⟨hnot, hreaches⟩ := (hfirst 1).mp harrived
  have hlatest := (hhistory body rfl (.waitFor target :: detour) 1).mpr
    ⟨[], target, detour, rfl, hfree, hnot, hreaches⟩
  exact ⟨hpursuit, hnot, hreaches, hlatest, (honce now 1 harrived).2 detour (by decide)⟩

end Motion

end Cutscene
