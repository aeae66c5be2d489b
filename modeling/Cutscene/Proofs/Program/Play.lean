import Cutscene.Proofs.Program.Report

namespace Cutscene

namespace Play

def Options.due (o : Options) (frame : Nat) : List Press :=
  o.presses.filter fun press => press.frame = frame

def Press.event (press : Press) : Event := .buttonPressed press.button

namespace Run

def opened (r : Run) : Player :=
  (r.presses.takeWhile fun press => press.frame ≤ r.frames).foldl
    (fun player press => fire press player) r.player

def fault? (o : Options) (r : Run) : Option CutsceneError :=
  (r.opened.update Recording.host (Duration.frame o.rate)).2

/-- What the log gains by the update that comes next and by the drawings. -/
def told (o : Options) (r : Run) : List Event :=
  (r.next o).player.world.events.drop r.opened.world.events.length

def goesOn (r : Run) : Bool := r.player.session.active && r.failure.isNone

end Run

/-- The run after so many frames, whether or not it ends before that. -/
def after (o : Options) (player : Player) : Nat → Run
  | 0 => .start o player
  | frames + 1 => (after o player frames).next o

variable {o : Options} {player : Player} {r : Run} {presses : List Press}

open Interpreter

section Schedule

theorem filter_frames {p q s : Nat → Prop} [DecidablePred p] [DecidablePred q] [DecidablePred s]
    (h : ∀ frame, p frame ∧ q frame ↔ s frame) (presses : List Press) :
    (presses.filter fun press => q press.frame).filter (fun press => p press.frame) =
      presses.filter fun press => s press.frame := by
  rw [List.filter_filter]
  refine List.filter_congr fun press _ => ?_
  rw [← Bool.decide_and]
  exact decide_eq_decide.mpr (h press.frame)

theorem due_of_pairwise (frame : Nat) (h : presses.Pairwise fun a b => a.frame ≤ b.frame) :
    (presses.takeWhile fun press => press.frame ≤ frame) =
        presses.filter (fun press => press.frame ≤ frame) ∧
      (presses.dropWhile fun press => press.frame ≤ frame) =
        presses.filter fun press => frame < press.frame := by
  induction presses with
  | nil => exact ⟨rfl, rfl⟩
  | cons first presses ih =>
      obtain ⟨hfirst, hrest⟩ := List.pairwise_cons.mp h
      obtain ⟨htake, hdrop⟩ := ih hrest
      by_cases hdue : first.frame ≤ frame
      · simp [hdue, htake, hdrop]
      · have hlater : ∀ press ∈ first :: presses, frame < press.frame := by
          intro press hpress
          obtain rfl | hpress := List.mem_cons.mp hpress
          · exact Nat.lt_of_not_le hdue
          · exact Nat.lt_of_lt_of_le (Nat.lt_of_not_le hdue) (hfirst press hpress)
        have hnone : (first :: presses).filter (fun press => press.frame ≤ frame) = [] := by
          refine List.filter_eq_nil_iff.mpr fun press hpress => ?_
          rw [decide_eq_true_iff]
          exact Nat.not_le_of_lt (hlater press hpress)
        have hall : (first :: presses).filter (fun press => frame < press.frame) =
            first :: presses :=
          List.filter_eq_self.mpr fun press hpress => decide_eq_true (hlater press hpress)
        rw [hnone, hall]
        simp [hdue]

theorem ordered_trans (a b c : Press) (hab : decide (a.frame ≤ b.frame) = true)
    (hbc : decide (b.frame ≤ c.frame) = true) : decide (a.frame ≤ c.frame) = true :=
  decide_eq_true (Nat.le_trans (of_decide_eq_true hab) (of_decide_eq_true hbc))

theorem ordered_total (a b : Press) :
    (decide (a.frame ≤ b.frame) || decide (b.frame ≤ a.frame)) = true := by
  rw [Bool.or_eq_true, decide_eq_true_iff, decide_eq_true_iff]
  exact Nat.le_total a.frame b.frame

theorem pairwise_start (o : Options) (player : Player) :
    (Run.start o player).presses.Pairwise fun a b => a.frame ≤ b.frame :=
  (List.pairwise_mergeSort ordered_trans ordered_total o.presses).imp of_decide_eq_true

theorem filter_start (o : Options) (player : Player) (frame : Nat) :
    (Run.start o player).presses.filter (fun press => press.frame = frame) = o.due frame := by
  have hframe : ∀ press ∈ o.due frame, press.frame = frame := fun press hpress =>
    of_decide_eq_true (List.mem_filter.mp hpress).2
  have hordered : (o.due frame).Pairwise fun a b => decide (a.frame ≤ b.frame) = true := by
    refine List.pairwise_of_forall_mem_list fun a ha b hb => ?_
    rw [hframe a ha, hframe b hb]
    exact decide_eq_true (Nat.le_refl frame)
  have hwithin : (o.due frame).Sublist (Run.start o player).presses :=
    List.sublist_mergeSort ordered_trans ordered_total hordered List.filter_sublist
  have hkept := hwithin.filter fun press => press.frame = frame
  have hdue : (o.due frame).filter (fun press => press.frame = frame) = o.due frame :=
    List.filter_eq_self.mpr fun press hpress => decide_eq_true (hframe press hpress)
  rw [hdue] at hkept
  have hperm : (Run.start o player).presses.Perm o.presses := List.mergeSort_perm o.presses _
  exact (hkept.eq_of_length (hperm.filter _).length_eq.symm).symm

theorem frames_after (o : Options) (player : Player) (frames : Nat) :
    (after o player frames).frames = frames := by
  induction frames with
  | zero => rfl
  | succ frames ih => exact congrArg (· + 1) ih

/-- No press is late or lost: what is left is what belongs to later frames. -/
theorem presses_after (o : Options) (player : Player) (frames : Nat) :
    (after o player frames).presses =
      (Run.start o player).presses.filter fun press => frames ≤ press.frame := by
  induction frames with
  | zero => exact (List.filter_eq_self.mpr fun press _ => decide_eq_true (Nat.zero_le _)).symm
  | succ frames ih =>
      have hnext : (after o player (frames + 1)).presses =
          (after o player frames).presses.dropWhile fun press =>
            press.frame ≤ (after o player frames).frames := rfl
      have hordered := (pairwise_start o player).filter fun press => decide (frames ≤ press.frame)
      rw [hnext, frames_after, ih, (due_of_pairwise frames hordered).2]
      exact filter_frames (p := (frames < ·)) (q := (frames ≤ ·)) (s := (frames + 1 ≤ ·))
        (fun n => by omega) _

theorem due_after (o : Options) (player : Player) (frame : Nat) :
    ((after o player frame).presses.takeWhile fun press =>
      press.frame ≤ (after o player frame).frames) = o.due frame := by
  have hordered := (pairwise_start o player).filter fun press => decide (frame ≤ press.frame)
  rw [frames_after, presses_after, (due_of_pairwise frame hordered).1,
    ← filter_start o player frame]
  exact filter_frames (p := (· ≤ frame)) (q := (frame ≤ ·)) (s := (· = frame))
    (fun n => by omega) _

end Schedule

section Log

def Unpressed (_ : Recording) (event : Event) : Prop := event.press? = none

theorem unpressed_actions : ActionsInOrder Unpressed := fun _ _ _ haction _ _ htells =>
  (Action.inOrder_of_tells haction htells).1

theorem unpressed_handler {τ : Type} : (Recording.handler : Handler τ).InOrder Unpressed where
  interpret name i state event hevent _ := by
    rw [List.mem_singleton.mp hevent]
    rfl
  update name i elapsed state event hevent := nomatch hevent
  signal group i state event hevent _ := by
    rw [List.mem_singleton.mp hevent]
    rfl

theorem fire_frame (press : Press) (player : Player) :
    (fire press player).world.events = player.world.events ++ [press.event] ∧
      (fire press player).handler = player.handler := by
  obtain ⟨hworld, hhandler⟩ :=
    push_frame press.button (player.tell Recording.host (.buttonPressed press.button))
  refine ⟨?_, hhandler⟩
  rw [fire, hworld]
  exact Recording.events_tell _ _

theorem fires_frame (presses : List Press) (player : Player) :
    (presses.foldl (fun player press => fire press player) player).world.events =
        player.world.events ++ presses.map Press.event ∧
      (presses.foldl (fun player press => fire press player) player).handler =
        player.handler := by
  induction presses generalizing player with
  | nil => exact ⟨(List.append_nil _).symm, rfl⟩
  | cons press presses ih =>
      obtain ⟨hlog, hhandler⟩ := ih (fire press player)
      obtain ⟨hfirst, hsame⟩ := fire_frame press player
      refine ⟨?_, hhandler.trans hsame⟩
      rw [List.foldl_cons, hlog, hfirst, List.append_assoc]
      rfl

theorem guarded_opened (h : r.player.Guarded Unpressed) : r.opened.Guarded Unpressed := by
  rw [Guarded, Run.opened, (fires_frame _ _).2]
  exact h

theorem reports_next (h : r.player.Guarded Unpressed) (o : Options) :
    Reports Unpressed r.opened (r.next o).player := by
  have hupdated :=
    reports_update unpressed_actions (guarded_opened h) (Duration.frame o.rate)
  change Reports Unpressed r.opened (if o.recordDraws then _ else _)
  split
  · exact hupdated.trans (reports_draw (fun _ _ _ => rfl) _)
  · exact hupdated

theorem told_next (h : r.player.Guarded Unpressed) (o : Options) :
    (r.next o).player.world.events = r.opened.world.events ++ r.told o ∧
      ∀ event ∈ r.told o, event.press? = none := by
  obtain ⟨events, hevents⟩ := (reports_next h o).world
  have htold : r.told o = events := by rw [Run.told, hevents.events_eq, List.drop_left]
  rw [htold]
  exact ⟨hevents.events_eq, hevents.forall_mem fun _ _ h => h⟩

theorem guarded_after (h : player.Guarded Unpressed) (o : Options) (frames : Nat) :
    (after o player frames).player.Guarded Unpressed := by
  induction frames with
  | zero => exact h
  | succ frames ih => exact (reports_next ih o).guarded (guarded_opened ih)

theorem opened_after (o : Options) (player : Player) (frame : Nat) :
    (after o player frame).opened.world.events =
      (after o player frame).player.world.events ++ (o.due frame).map Press.event := by
  rw [Run.opened, due_after]
  exact (fires_frame _ _).1

theorem events_after (h : player.Guarded Unpressed) (o : Options) (frames : Nat) :
    (after o player frames).player.world.events = player.world.events ++
      (List.range frames).flatMap fun frame =>
        (o.due frame).map Press.event ++ (after o player frame).told o := by
  induction frames with
  | zero => exact (List.append_nil _).symm
  | succ frames ih =>
      have hnext := (told_next (guarded_after h o frames) o).1
      rw [after, hnext, opened_after, ih, List.range_succ, List.flatMap_append,
        List.flatMap_singleton, List.append_assoc, List.append_assoc]

theorem presses_of_log {told : Nat → List Event}
    (htold : ∀ frame, ∀ event ∈ told frame, event.press? = none) (o : Options) (frames : Nat) :
    ((List.range frames).flatMap fun frame => (o.due frame).map Press.event ++ told frame).filterMap
        Event.press? = ((List.range frames).flatMap o.due).map (·.button) := by
  rw [List.filterMap_flatMap, List.map_flatMap]
  refine congrArg (fun f => (List.range frames).flatMap f) (funext fun frame => ?_)
  have hnone : (told frame).filterMap Event.press? = [] :=
    List.filterMap_eq_nil_iff.mpr (htold frame)
  rw [List.filterMap_append, hnone, List.append_nil, List.filterMap_map]
  exact congrFun List.filterMap_eq_map _

theorem perm_due (o : Options) (frames : Nat) :
    ((List.range frames).flatMap o.due).Perm
      (o.presses.filter fun press => press.frame < frames) := by
  induction frames with
  | zero =>
      have hnone : o.presses.filter (fun press => press.frame < 0) = [] :=
        List.filter_eq_nil_iff.mpr fun press _ => by simp
      rw [hnone]
      exact .nil
  | succ frames ih =>
      let upTo := o.presses.filter fun press => press.frame < frames + 1
      have hearlier : upTo.filter (fun press => press.frame < frames) =
          o.presses.filter fun press => press.frame < frames :=
        filter_frames (p := (· < frames)) (q := (· < frames + 1)) (s := (· < frames))
          (fun n => by omega) o.presses
      have hlast : upTo.filter (fun press => !decide (press.frame < frames)) = o.due frames := by
        simp only [← decide_not]
        exact filter_frames (p := (¬ · < frames)) (q := (· < frames + 1)) (s := (· = frames))
          (fun n => by omega) o.presses
      have hsplit := List.filter_append_perm (fun press => decide (press.frame < frames)) upTo
      rw [hearlier, hlast] at hsplit
      rw [List.range_succ, List.flatMap_append, List.flatMap_singleton]
      exact (ih.append_right _).trans hsplit

end Log

section Course

/-- A run stops where it can no longer go on, or has had all its frames, and not before. -/
theorem play_after (o : Options) (player : Player) (left frames : Nat) :
    ∃ k ≤ left, (after o player frames).play o left = after o player (frames + k) ∧
      (∀ j < k, (after o player (frames + j)).goesOn = true) ∧
      (k = left ∨ (after o player (frames + k)).goesOn = false) := by
  induction left generalizing frames with
  | zero => exact ⟨0, Nat.le_refl 0, rfl, nofun, .inl rfl⟩
  | succ left ih =>
      cases hgoes : (after o player frames).goesOn with
      | false =>
          refine ⟨0, Nat.zero_le _, ?_, nofun, .inr hgoes⟩
          rw [Run.play]
          exact if_neg (by rw [← Run.goesOn, hgoes]; exact Bool.false_ne_true)
      | true =>
          obtain ⟨k, hk, hplay, hbefore, hstop⟩ := ih (frames + 1)
          have hshift (j : Nat) : frames + 1 + j = frames + (j + 1) := by omega
          rw [hshift] at hplay hstop
          refine ⟨k + 1, Nat.succ_le_succ hk, ?_, ?_, hstop.imp_left (congrArg (· + 1))⟩
          · rw [Run.play, ← hplay]
            exact if_pos hgoes
          · intro j hj
            cases j with
            | zero => exact hgoes
            | succ j =>
                rw [← hshift]
                exact hbefore j (Nat.lt_of_succ_lt_succ hj)

theorem begin?_eq_ok {bytes : List UInt8} (h : begin? o bytes = .ok player) :
    player.session.active = true ∧ player.world.events = [] ∧ player.Guarded Unpressed := by
  rw [begin?, startFile] at h
  split at h
  · cases h
    refine ⟨rfl, rfl, ?_⟩
    intro handler state hhandler
    cases hhandler
    exact unpressed_handler
  · cases h

/-- The presses that a run has come to are in its log: those of its frames and no others, each once,
and each between the updates that it stands between. -/
structure OnSchedule (o : Options) (player : Player) (r : Run) : Prop where
  presses : r.player.world.events.filterMap Event.press? =
    ((List.range r.frames).flatMap o.due).map (·.button)
  complete : ((List.range r.frames).flatMap o.due).Perm
    (o.presses.filter fun press => press.frame < r.frames)
  log : r.player.world.events = (List.range r.frames).flatMap fun frame =>
    (o.due frame).map Press.event ++ (after o player frame).told o
  /-- The presses come before all that the update of their frame tells of. -/
  opened : ∀ frame, (after o player frame).opened.world.events =
    (after o player frame).player.world.events ++ (o.due frame).map Press.event
  update : ∀ frame, (after o player (frame + 1)).player.world.events =
    (after o player frame).opened.world.events ++ (after o player frame).told o

theorem onSchedule_after (hlog : player.world.events = []) (h : player.Guarded Unpressed)
    (o : Options) (frames : Nat) : OnSchedule o player (after o player frames) := by
  have hevents := events_after h o frames
  rw [hlog, List.nil_append] at hevents
  refine ⟨?_, perm_due o _, ?_, opened_after o player,
    fun frame => (told_next (guarded_after h o frame) o).1⟩
  · rw [hevents, frames_after]
    exact presses_of_log (fun frame => (told_next (guarded_after h o frame) o).2) o frames
  · rw [hevents, frames_after]

/-- How a run has ended. What is reported of it tells which of the cases it is. -/
def Ends (o : Options) (player : Player) (r : Run) : Prop :=
  match r.finished, r.failure with
  | true, none => r.player.session.active = false
  | false, some e => ∃ last, r.frames = last + 1 ∧ (after o player last).fault? o = some e
  | false, none => r.player.session.active = true ∧ r.frames = o.maxFrames
  | true, some _ => False

theorem ends_after {last : Nat} (h : last + 1 = o.maxFrames ∨
    (after o player (last + 1)).goesOn = false) : Ends o player (after o player (last + 1)) := by
  have hframes := frames_after o player (last + 1)
  have hfault : (after o player (last + 1)).failure = (after o player last).fault? o := rfl
  rw [Run.goesOn] at h
  rw [Ends, Run.finished]
  generalize after o player (last + 1) = r at h hframes hfault ⊢
  cases hfailure : r.failure with
  | some e =>
      rw [Option.isNone_some, Bool.and_false]
      exact ⟨last, hframes, by rw [← hfault, hfailure]⟩
  | none =>
      rw [hfailure, Option.isNone_none, Bool.and_true] at h
      rw [Option.isNone_none, Bool.and_true]
      cases hactive : r.player.session.active with
      | false => rfl
      | true =>
          obtain hmax | hidle := h
          · exact ⟨rfl, hframes.trans hmax⟩
          · rw [hactive] at hidle
            cases hidle

/-- A script that can be loaded is played until it ends, fails or has had all of its frames, and what
is printed and logged tells of that. Every press takes place in its frame, if the run comes to it, and
before the update of that frame. -/
theorem execute_onSchedule {disk : Disk} {bytes : List UInt8}
    (hread : disk.read o.script = .ok bytes) (hbegin : begin? o bytes = .ok player)
    (hmax : 0 < o.maxFrames) :
    let r := (Run.start o player).play o o.maxFrames
    execute o disk = r.report o disk ∧ Reported o disk r (execute o disk) ∧
      r = after o player r.frames ∧ 1 ≤ r.frames ∧ r.frames ≤ o.maxFrames ∧
      (∀ frame < r.frames, (after o player frame).goesOn = true) ∧
      OnSchedule o player r ∧ Ends o player r := by
  obtain ⟨hactive, hlog, hguarded⟩ := begin?_eq_ok hbegin
  obtain ⟨frames, hframes, hplay, hbefore, hstop⟩ := play_after o player o.maxFrames 0
  simp only [Nat.zero_add] at hplay hbefore hstop
  -- The script runs to begin with, so that the first frame takes place.
  have hstart : (after o player 0).goesOn = true := by
    rw [Run.goesOn]
    exact Bool.and_eq_true_iff.mpr ⟨hactive, rfl⟩
  obtain ⟨last, rfl⟩ : ∃ last, frames = last + 1 := by
    refine Nat.exists_eq_add_one_of_ne_zero fun hnone => ?_
    subst hnone
    obtain hzero | hover := hstop
    · omega
    · rw [hstart] at hover
      cases hover
  intro r
  have hr : r = after o player (last + 1) := hplay
  have hcount : r.frames = last + 1 := by rw [hr, frames_after]
  have hrun : execute o disk = r.report o disk := by
    rw [execute, hread]
    simp only [hbegin]
    rfl
  refine ⟨hrun, ?_, ?_, ?_, ?_, ?_, ?_, ?_⟩
  · rw [hrun]
    exact reported_report o disk r
  · rw [hcount, hr]
  · omega
  · omega
  · rwa [hcount]
  · rw [hr]
    exact onSchedule_after hlog hguarded o (last + 1)
  · rw [hr]
    exact ends_after hstop

def atDoor : Options :=
  { script := "door.dream", presses := [⟨9, "Up"⟩, ⟨2, "A"⟩, ⟨1, "B"⟩, ⟨2, "X"⟩]
    log := some "log.json" }

def doorText : List UInt8 := Utf8.encode "waitForButton A".toList

def doorDisk : Disk where
  files := [("door.dream", doorText)]

def doorPlayer : Player :=
  let fresh : Player := { world := .start Recording.defaultButtons Recording.defaultResolution }
  let wait : Instruction := { command := .builtin .waitForButton, strings := ["A"] }
  fresh.start [wait] (some (Recording.handler, ())) 0

theorem execute_onSchedule_atDoor :
    let r := (Run.start atDoor doorPlayer).play atDoor atDoor.maxFrames
    doorDisk.read atDoor.script = .ok doorText ∧ begin? atDoor doorText = .ok doorPlayer ∧
      0 < atDoor.maxFrames ∧ r.frames = 3 ∧
      r.player.world.events.filterMap Event.press? = ["B", "A", "X"] ∧
      Ends atDoor doorPlayer r ∧
      ∃ log bytes, (execute atDoor doorDisk).disk.read "log.json" = .ok bytes ∧
        Json.Written log bytes ∧ log.field? "frames" = some (.nat 3) := by
  have hread : doorDisk.read atDoor.script = .ok doorText := by rfl
  have hbegin : begin? atDoor doorText = .ok doorPlayer := by rfl
  have hmax : 0 < atDoor.maxFrames := by decide
  let inOrder : List Press := [⟨1, "B"⟩, ⟨2, "A"⟩, ⟨2, "X"⟩, ⟨9, "Up"⟩]
  have hsorted : (atDoor.presses.mergeSort fun a b => decide (a.frame ≤ b.frame)) = inOrder := by
    simp [inOrder, atDoor, List.mergeSort]
  have hstart : Run.start atDoor doorPlayer = ⟨doorPlayer, inOrder, 0, none⟩ :=
    congrArg (fun presses => (⟨doorPlayer, presses, 0, none⟩ : Run)) hsorted
  obtain ⟨-, hreported, -, -, -, -, hschedule, hends⟩ := execute_onSchedule hread hbegin hmax
  have hframes : ((Run.start atDoor doorPlayer).play atDoor atDoor.maxFrames).frames = 3 := by
    rw [hstart]
    decide +kernel
  have hpresses := hschedule.presses
  rw [hframes] at hpresses
  refine ⟨hread, hbegin, hmax, hframes, hpresses.trans (by decide), hends, ?_⟩
  have hroom : doorDisk.write "log.json" [] =
      .ok { doorDisk with files := doorDisk.files.insert "log.json" [] } := by
    rfl
  generalize execute atDoor doorDisk = out at hreported
  cases hreported with
  | unlogged hlog => cases hlog
  | unsaved hlog _ _ hwrite =>
      cases hlog
      obtain ⟨later, hlater⟩ := Disk.exists_write hroom _
      rw [hwrite] at hlater
      cases hlater
  | logged hlog hlogged hwritten _ hread hcloses =>
      cases hlog
      have hframe := hlogged.frames
      rw [hframes] at hframe
      cases hcloses <;> exact ⟨_, _, hread, hwritten, hframe⟩

end Course

end Play

end Cutscene
