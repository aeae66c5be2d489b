import Cutscene.Program.Play
import Cutscene.Proofs.Json
import Cutscene.Proofs.Program.Disk
import Cutscene.Proofs.Stage.Told

namespace Cutscene

namespace Json

theorem sound_vec (v : Vec) : Sound (vec v) := .array (by simp [single])

theorem sound_color (c : Color) : Sound (color c) := .object (by simp [byte])

theorem sound_optional (s : Option String) : Sound (optional s) := by
  cases s <;> simp [optional]

theorem sound_params (p : DrawParams) : Sound (params p) :=
  .object (by simp [single, sound_vec, sound_color])

theorem sound_event (event : Event) : Sound event.toJson := by
  refine .object (List.forall_mem_cons.mpr ⟨.string _, ?_⟩)
  cases event <;>
    simp [Event.fields, single, sound_vec, sound_color, sound_optional, sound_params]

def press? (entry : Json) : Option String :=
  match entry.field? "kind", entry.field? "button" with
  | some (.string "button_pressed"), some (.string button) => some button
  | _, _ => none

theorem press?_event (event : Event) : press? event.toJson = event.press? := by
  cases event <;> rfl

end Json

namespace Play

/-- What the log of a run says. -/
structure Logged (o : Options) (r : Run) (log : Json) : Prop where
  script : log.field? "script" = some (.string o.script)
  frames : log.field? "frames" = some (.nat r.frames)
  finished : log.field? "finished" = some (.bool r.finished)
  index : log.field? "final_index" = some (.nat r.player.session.index)
  error : log.field? "error" = r.failure.map fun e => .string e.message
  events : ∃ entries, log.field? "events" = some (.array entries) ∧
    entries = r.player.world.events.map Event.toJson ∧
      entries.filterMap Json.press? = r.player.world.events.filterMap Event.press?

def Run.line (o : Options) (r : Run) : String :=
  o.script ++ ": " ++ toString r.frames ++ " frames, " ++ toString r.player.world.events.length ++
    " host events, stopped at instruction " ++ toString r.player.session.index

/-- How the program ends after a run, with these lines printed before. -/
inductive Closes (o : Options) (printed : List String) (r : Run) (disk : Disk) : Outcome → Prop
  | finished (hfinished : r.finished = true) (hnone : r.failure = none) :
      Closes o printed r disk ⟨0, printed ++ [r.line o], [], disk⟩
  | aborted {e : CutsceneError} (hfinished : r.finished = false) (hfailure : r.failure = some e) :
      Closes o printed r disk
        ⟨1, printed ++ [r.line o],
          Outcome.report ("cutscene " ++ o.script ++ " aborted") (e.message :: e.causes), disk⟩
  | running (hfinished : r.finished = false) (hnone : r.failure = none) :
      Closes o printed r disk
        ⟨0, printed ++ [r.line o, "still running after " ++ toString o.maxFrames ++ " frames"], [],
          disk⟩

/-- All that a run is reported by: what is printed, the exit code and the log, if one is asked for. -/
inductive Reported (o : Options) (disk : Disk) (r : Run) : Outcome → Prop
  | unlogged {out : Outcome} (hlog : o.log = none) (hcloses : Closes o [] r disk out) :
      Reported o disk r out
  | logged {path : String} {log : Json} {bytes : List UInt8} {later : Disk} {out : Outcome}
      (hlog : o.log = some path) (hlogged : Logged o r log) (hwritten : log.Written bytes)
      (hwrite : disk.write path bytes = .ok later) (hread : later.read path = .ok bytes)
      (hcloses : Closes o ["Saved event log to " ++ path] r later out) : Reported o disk r out
  | unsaved {path : String} {log : Json} {bytes : List UInt8} {failure : Disk.Failure}
      (hlog : o.log = some path) (hlogged : Logged o r log) (hwritten : log.Written bytes)
      (hwrite : disk.write path bytes = .error failure) :
      Reported o disk r (.failed ("writing event log to " ++ path) [failure.message] [] disk)

variable {o : Options} {printed : List String} {disk : Disk} {r : Run}

theorem sound_toJson (o : Options) (r : Run) : (r.toJson o).Sound := by
  refine .object ?_
  cases r.failure <;> simp [Json.Sound.array, Json.sound_event]

theorem logged_toJson (o : Options) (r : Run) : Logged o r (r.toJson o) := by
  have hpresses : (r.player.world.events.map Event.toJson).filterMap Json.press? =
      r.player.world.events.filterMap Event.press? := by
    rw [List.filterMap_map]
    exact congrArg (fun f => r.player.world.events.filterMap f) (funext Json.press?_event)
  obtain ⟨player, presses, frames, failure⟩ := r
  cases failure <;> exact ⟨rfl, rfl, rfl, rfl, rfl, _, rfl, rfl, hpresses⟩

theorem summary_eq (o : Options) (r : Run) : r.summary o = r.line o := by
  have hlength : r.player.world.recent.length = r.player.world.events.length :=
    List.length_reverse.symm
  rw [Run.summary, Run.line, hlength]

theorem closes_conclude (o : Options) (printed : List String) (disk : Disk) (r : Run) :
    Closes o printed r disk (r.conclude o printed disk) := by
  rw [Run.conclude, summary_eq]
  cases hfailure : r.failure with
  | some e =>
      refine .aborted ?_ hfailure
      rw [Run.finished, hfailure, Option.isNone_some, Bool.and_false]
  | none =>
      cases hfinished : r.finished with
      | true => exact .finished hfinished hfailure
      | false =>
          simp only [Bool.false_eq_true, if_false]
          rw [List.append_assoc, List.singleton_append]
          exact .running hfinished hfailure

theorem reported_report (o : Options) (disk : Disk) (r : Run) :
    Reported o disk r (r.report o disk) := by
  have hwritten := (sound_toJson o r).written
  have hlogged := logged_toJson o r
  rw [Run.report]
  cases hlog : o.log with
  | none => exact .unlogged hlog (closes_conclude o [] disk r)
  | some path =>
      simp only
      cases hwrite : disk.write path (Utf8.encode (r.toJson o).text.toList) with
      | error failure => exact .unsaved hlog hlogged hwritten hwrite
      | ok later =>
          exact .logged hlog hlogged hwritten hwrite (Disk.read_write hwrite)
            (closes_conclude o ["Saved event log to " ++ path] later r)

end Play

end Cutscene
