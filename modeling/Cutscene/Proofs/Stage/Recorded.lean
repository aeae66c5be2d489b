import Cutscene.Proofs.Stage.Handling
import Cutscene.Proofs.Stage.Told

namespace Cutscene

namespace Event

def blocks? (button : String) : Event → Option Bool
  | .blockInput other blocked => if other = button then some blocked else none
  | .blockAllInputs blocked => some blocked
  | _ => none

def holds? (button : String) : Event → Option Bool
  | .buttonDown other => if other = button then some true else none
  | .buttonUp other => if other = button then some false else none
  | _ => none

def fullscreen? : Event → Option Bool
  | .fullscreen enabled => some enabled
  | _ => none

def forces? : Event → Option Bool
  | .forceResizeResolution enabled => some enabled
  | _ => none

def resolution? : Event → Option Vec
  | .changeResolution width height _ =>
      some ⟨singleOfInt width.toInt, singleOfInt height.toInt⟩
  | _ => none

end Event

/-- They go back and forth, and the first is `true`. -/
def Alternating (values : List Bool) : Prop :=
  ∀ n value, values[n]? = some value → value = decide (n % 2 = 0)

theorem Alternating.concat {values : List Bool} (h : Alternating values) {value : Bool}
    (hvalue : value ≠ values.getLastD false) : Alternating (values ++ [value]) := by
  intro n other hother
  rcases Nat.lt_or_ge n values.length with hn | hn
  · rw [List.getElem?_append_left hn] at hother
    exact h n other hother
  · rw [List.getElem?_append_right hn, List.getElem?_singleton] at hother
    split at hother
    · cases hother
      obtain rfl : n = values.length := by omega
      -- The new value differs from the last one, or from `false` if it is the first.
      rw [List.getLastD_eq_getLast?, List.getLast?_eq_getElem?] at hvalue
      cases hlast : values[values.length - 1]? with
      | none =>
          have hempty := List.getElem?_eq_none_iff.mp hlast
          have hlength : values.length = 0 := by omega
          rw [hlast] at hvalue
          rw [hlength]
          exact Bool.eq_not_of_ne hvalue
      | some last =>
          have hlength := (List.getElem?_eq_some_iff.mp hlast).1
          have hparity := h _ last hlast
          rw [hlast, Option.getD_some, hparity] at hvalue
          have hflip : (values.length - 1) % 2 = 0 ↔ ¬ values.length % 2 = 0 := by omega
          rw [Bool.eq_not_of_ne hvalue, ← decide_not]
          exact decide_eq_decide.mpr (by omega)
    · cases hother

namespace Recording

variable {α : Type} {r r' : Recording} {buttons : List String} {resolution : Vec} {event : Event}

/-- What the last event of a log that speaks of a thing says of it. -/
def latest (speaks : Event → Option α) (start : α) (log : List Event) : α :=
  (log.filterMap speaks).getLastD start

theorem filterMap_concat (speaks : Event → Option α) (log : List Event) (event : Event) :
    (log ++ [event]).filterMap speaks = log.filterMap speaks ++ (speaks event).toList := by
  rw [List.filterMap_append]
  cases h : speaks event with
  | none => rw [List.filterMap_cons_none h]; rfl
  | some value => rw [List.filterMap_cons_some h]; rfl

theorem latest_concat (speaks : Event → Option α) (start : α) (log : List Event) (event : Event) :
    latest speaks start (log ++ [event]) = (speaks event).getD (latest speaks start log) := by
  rw [latest, filterMap_concat]
  cases speaks event with
  | none => rw [Option.toList_none, List.append_nil]; rfl
  | some value => exact List.getLastD_concat

def isHeld (button : String) (r : Recording) : Bool := (r.buttons.get? button).any (·.down)

/-- How a button stands by what the log says of it. -/
def loggedState (button : String) (log : List Event) : ButtonState where
  down := latest (Event.holds? button) false log
  blocked := latest (Event.blocks? button) false log

/-- All of the state is in the log, and in the way the host was set up. -/
structure Recorded (buttons : List String) (resolution : Vec) (r : Recording) : Prop where
  state : ∀ button, r.buttons.get? button =
    if button ∈ buttons then some (loggedState button r.events) else none
  fullscreen : r.fullscreen = latest Event.fullscreen? false r.events
  alternates : Alternating (r.events.filterMap Event.fullscreen?)
  forced : r.forced = latest Event.forces? false r.events
  resolution : r.resolution = latest Event.resolution? resolution r.events

theorem get?_start (buttons : List String) (resolution : Vec) (button : String) :
    (start buttons resolution).buttons.get? button =
      if button ∈ buttons then some {} else none := by
  have hinsert (names : List String) (table : Named ButtonState) :
      (names.foldl (fun table name => table.insert name {}) table).get? button =
        if button ∈ names then some {} else table.get? button := by
    induction names generalizing table with
    | nil => exact (if_neg List.not_mem_nil).symm
    | cons name names ih =>
        rw [List.foldl_cons, ih, Named.get?_insert]
        by_cases hlater : button ∈ names
        · rw [if_pos hlater, if_pos (List.mem_cons_of_mem name hlater)]
        · rw [if_neg hlater]
          exact if_congr (by rw [List.mem_cons, or_iff_left hlater]) rfl rfl
  exact hinsert buttons []

theorem recorded_start (buttons : List String) (resolution : Vec) :
    Recorded buttons resolution (start buttons resolution) where
  state := get?_start buttons resolution
  fullscreen := rfl
  alternates := nofun
  forced := rfl
  resolution := rfl

theorem get?_tell (button : String) (event : Event) (r : Recording) :
    (r.tell event).buttons.get? button = (r.buttons.get? button).map fun state =>
      ⟨(event.holds? button).getD state.down, (event.blocks? button).getD state.blocked⟩ := by
  have hunspoken : r.buttons.get? button =
      (r.buttons.get? button).map fun state => ⟨state.down, state.blocked⟩ := Option.map_id'.symm
  change (r.heed event).buttons.get? button = _
  cases event with
  | buttonDown other | buttonUp other | blockInput other blocked =>
      simp only [heed, hold, block, Event.holds?, Event.blocks?]
      rw [Named.get?_modify]
      by_cases hname : button = other
      · rw [if_pos hname, if_pos hname.symm]
        rfl
      · rw [if_neg hname, if_neg (Ne.symm hname)]
        exact hunspoken
  | blockAllInputs blocked =>
      exact Named.get?_map (fun state : ButtonState => { state with blocked }) button r.buttons
  | _ => exact hunspoken

theorem settings_tell (event : Event) (r : Recording) :
    (r.tell event).fullscreen = event.fullscreen?.getD r.fullscreen ∧
      (r.tell event).forced = event.forces?.getD r.forced ∧
      (r.tell event).resolution = event.resolution?.getD r.resolution := by
  cases event <;> exact ⟨rfl, rfl, rfl⟩

theorem Recorded.tell (h : Recorded buttons resolution r) (hturns : r.Turns event) :
    Recorded buttons resolution (r.tell event) := by
  obtain ⟨hfullscreen, hforced, hresolution⟩ := settings_tell event r
  have hlog := events_tell event r
  refine ⟨fun button => ?_, ?_, ?_, ?_, ?_⟩
  · rw [get?_tell, h.state, hlog]
    simp only [loggedState, latest_concat]
    split <;> rfl
  · rw [hfullscreen, hlog, latest_concat, h.fullscreen]
  · rw [hlog, filterMap_concat]
    cases event with
    | fullscreen enabled =>
        refine h.alternates.concat ?_
        change enabled ≠ latest Event.fullscreen? false r.events
        rw [← h.fullscreen]
        exact hturns
    | _ =>
        change Alternating (_ ++ [])
        rw [List.append_nil]
        exact h.alternates
  · rw [hforced, hlog, latest_concat, h.forced]
  · rw [hresolution, hlog, latest_concat, h.resolution]

theorem Recorded.told (h : Recorded buttons resolution r) {events : List Event}
    (htold : Told Turns r events r') : Recorded buttons resolution r' := by
  induction htold with
  | refl => exact h
  | tell _ hturns ih => exact ih.tell hturns

theorem Recorded.button (h : Recorded buttons resolution r) {button : String}
    (hbutton : button ∈ buttons) :
    r.isBlocked button = latest (Event.blocks? button) false r.events ∧
      r.isHeld button = latest (Event.holds? button) false r.events ∧
      r.isDown button = (r.isHeld button && !r.isBlocked button) := by
  have hstate := h.state button
  rw [if_pos hbutton] at hstate
  rw [isBlocked, isHeld, isDown, hstate]
  exact ⟨rfl, rfl, rfl⟩

end Recording

open Recording

/-- Nothing becomes of the host by the call but by what it is told. -/
def Call.OnRecord {τ : Type} : Call Recording τ → Prop
  | .start _ handler _ | .startFile _ handler _ =>
      ∀ hooks state, handler = some (hooks, state) → hooks.InOrder Turns
  | .outside world _ => ∀ r, ∃ events, Told Turns r events (world r)
  | _ => True

namespace Interpreter

variable {τ : Type} {s : Interpreter Recording τ} {buttons : List String} {resolution : Vec}
  {elapsed : Duration} {i : Instruction} {name : String}

theorem turns_actions : ActionsInOrder Turns := fun _ _ _ haction _ _ htells =>
  (Action.inOrder_of_tells haction htells).2

theorem turns_handler : (Recording.handler : Handler τ).InOrder Turns where
  interpret name i state event hevent _ := by
    rw [List.mem_singleton.mp hevent]
    trivial
  update name i elapsed state event hevent := nomatch hevent
  signal group i state event hevent _ := by
    rw [List.mem_singleton.mp hevent]
    trivial

theorem reports_answer (hguarded : s.Guarded Turns) {call : Call Recording τ} (hcall : call.OnRecord)
    (hbegins : call.begins = false) : Reports Turns s (s.answer Recording.host call) := by
  cases call with
  | start | startFile => cases hbegins
  | update elapsed => exact reports_update turns_actions hguarded elapsed
  | draw => exact reports_draw (fun _ _ _ => trivial) s
  | finish => exact .of_eq rfl rfl
  | push button => exact .of_eq (push_frame button s).1 (push_frame button s).2
  | release | fire => exact .refl s
  | outside world state =>
      refine ⟨hcall s.world, ?_⟩
      rw [answer, Option.map_map]
      rfl

theorem recorded_answer (hrecorded : Recorded buttons resolution s.world)
    (hguarded : s.Guarded Turns) {call : Call Recording τ} (hcall : call.OnRecord) :
    Recorded buttons resolution (s.answer Recording.host call).world ∧
      (s.answer Recording.host call).Guarded Turns := by
  cases hbegins : call.begins with
  | false =>
      have hreports := reports_answer hguarded hcall hbegins
      obtain ⟨events, htold⟩ := hreports.world
      exact ⟨hrecorded.told htold, hreports.guarded hguarded⟩
  | true =>
      cases call with
      | start script handler index => exact ⟨hrecorded, hcall⟩
      | startFile bytes handler index =>
          rw [answer, startFile]
          cases Script.ofBytes bytes with
          | ok script => exact ⟨hrecorded, hcall⟩
          | error cause => exact ⟨hrecorded, hguarded⟩
      | update | draw | finish | push | release | fire | outside => cases hbegins

theorem recorded_run (hrecorded : Recorded buttons resolution s.world) (hguarded : s.Guarded Turns)
    (calls : List (Call Recording τ)) (hcalls : ∀ call ∈ calls, call.OnRecord) :
    Recorded buttons resolution (s.run Recording.host calls).world := by
  induction calls generalizing s with
  | nil => exact hrecorded
  | cons call calls ih =>
      obtain ⟨hcall, hcalls⟩ := List.forall_mem_cons.mp hcalls
      obtain ⟨hrecorded, hguarded⟩ := recorded_answer hrecorded hguarded hcall
      exact ih hrecorded hguarded hcalls

/-- A drawing that is maximized gets the size that the host gives as its resolution. -/
theorem size_of_maximized {σ : Type} {host : Host σ} {s : Interpreter σ τ} (hstill : host.Still)
    (hcarries : CarriesOut host elapsed s i) (hcommand : i.command = .builtin .maximizeDrawing)
    (hname : i.string 0 = .ok name) (hok : (s.update host elapsed).2 = none) :
    ∃ d, (s.update host elapsed).1.drawings.get? name = some d ∧
      d.size = host.resolution s.world := by
  obtain ⟨-, hupdate, hnone⟩ := update_of_carriesOut hcarries
  obtain ⟨flow, hflow⟩ := hnone.mp hok
  have haction : Action.ofInstruction i .maximizeDrawing = .ok (.maximize name) := by
    rw [Action.ofInstruction, hname]
    rfl
  have hworld : (s.settle host elapsed).world = s.world :=
    (settle_frame host elapsed s).1.trans (ticked_of_still hstill elapsed s.drawings s.world)
  rw [hupdate, dispatch]
  generalize s.settle host elapsed = now at hflow hworld ⊢
  rw [carryOut_of_action hcommand haction] at hflow ⊢
  obtain ⟨hhas, hdrawings⟩ := drawings_changeDrawing hflow
  obtain ⟨d, hd⟩ := Option.isSome_iff_exists.mp hhas
  obtain rfl : flow = .done := flow_of_perform hflow
  rw [← hworld]
  generalize hresult : now.perform host i (.maximize name) = result at hflow
  obtain ⟨left, outcome⟩ := result
  obtain rfl : outcome = .ok .done := hflow
  have hleft := (congrArg (·.1.drawings) hresult.symm).trans hdrawings
  change ∃ d, left.drawings.get? name = some d ∧ _
  rw [hleft, Named.get?_modify, if_pos rfl, hd]
  exact ⟨_, rfl, rfl⟩

/-- From the log alone it can be told which buttons are blocked and which are down, and how the
window is set. Full screen comes and goes by turns in it, and its last resolution is the one that
drawings are maximized to. -/
theorem log_determines_host (buttons : List String) (resolution : Vec)
    (calls : List (Call Recording τ)) (hcalls : ∀ call ∈ calls, call.OnRecord) :
    let fresh : Interpreter Recording τ := { world := .start buttons resolution }
    let s := fresh.run Recording.host calls
    let log := s.world.events
    (∀ button ∈ buttons,
      s.world.isBlocked button = latest (Event.blocks? button) false log ∧
        s.world.isHeld button = latest (Event.holds? button) false log ∧
        s.world.isDown button = (s.world.isHeld button && !s.world.isBlocked button)) ∧
      s.world.fullscreen = latest Event.fullscreen? false log ∧
      Alternating (log.filterMap Event.fullscreen?) ∧
      s.world.forced = latest Event.forces? false log ∧
      s.world.resolution = latest Event.resolution? resolution log ∧
      ∀ elapsed i name, CarriesOut Recording.host elapsed s i →
        i.command = .builtin .maximizeDrawing → i.string 0 = .ok name →
        (s.update Recording.host elapsed).2 = none →
          ∃ d, (s.update Recording.host elapsed).1.drawings.get? name = some d ∧
            d.size = latest Event.resolution? resolution log := by
  intro fresh s log
  have hrecorded : Recorded buttons resolution s.world :=
    recorded_run (recorded_start buttons resolution) nofun calls hcalls
  refine ⟨fun button => hrecorded.button, hrecorded.fullscreen, hrecorded.alternates,
    hrecorded.forced, hrecorded.resolution, ?_⟩
  intro elapsed i name hcarries hcommand hname hok
  rw [← hrecorded.resolution]
  exact size_of_maximized Recording.still hcarries hcommand hname hok

/-- All buttons are blocked and one is allowed again, which is then held down. The window goes to
full screen and back, and it gets a new size, to which a drawing is about to be maximized. -/
def fitting : List (Call Recording Unit) :=
  let script : List Instruction :=
    [{ command := .builtin .blockAllInputs },
     { command := .builtin .allowInput, strings := ["A"] },
     { command := .builtin .buttonDown, strings := ["A"] },
     { command := .builtin .fullscreen },
     { command := .builtin .fullscreen },
     { command := .builtin .changeResolution, ints := [640, 480] },
     { command := .builtin .loadDrawing, strings := ["d", "d.png"] },
     { command := .builtin .maximizeDrawing, strings := ["d"] }]
  .start script (some (Recording.handler, ())) 0 :: List.replicate 7 (.update ⟨0⟩)

theorem log_determines_host_fitting :
    let fresh : Interpreter Recording Unit := { world := .start ["A", "B"] ⟨1280, 720⟩ }
    let s := fresh.run Recording.host fitting
    (∀ call ∈ fitting, call.OnRecord) ∧
      s.world.isBlocked "A" = false ∧ s.world.isBlocked "B" = true ∧
      s.world.isDown "A" = true ∧ s.world.fullscreen = false ∧
      Alternating (s.world.events.filterMap Event.fullscreen?) ∧
      ∃ d, (s.update Recording.host ⟨0⟩).1.drawings.get? "d" = some d ∧ d.size = ⟨640, 480⟩ := by
  intro fresh s
  have hcalls : ∀ call ∈ fitting, call.OnRecord := by
    intro call hcall
    rcases List.mem_cons.mp hcall with rfl | hframe
    · intro hooks state hhandler
      cases hhandler
      exact turns_handler
    · rw [List.eq_of_mem_replicate hframe]
      trivial
  obtain ⟨hbuttons, hfullscreen, halternates, -, -, hmaximized⟩ :=
    log_determines_host ["A", "B"] ⟨1280, 720⟩ fitting hcalls
  obtain ⟨hallowed, hheld, hdown⟩ := hbuttons "A" (by decide)
  obtain ⟨hblocked, -, -⟩ := hbuttons "B" (by decide)
  have hlog : s.world.events =
      [.blockAllInputs true, .blockInput "A" false, .buttonDown "A", .fullscreen true,
        .fullscreen false, .changeResolution 640 480 true, .loadImage "d.png"] := by
    decide +kernel
  have hcarries : CarriesOut Recording.host ⟨0⟩ s
      { command := .builtin .maximizeDrawing, strings := ["d"] } := by
    rw [carriesOut_iff]
    decide +kernel
  have hok : (s.update Recording.host ⟨0⟩).2 = none := by decide +kernel
  obtain ⟨d, hd, hsize⟩ := hmaximized ⟨0⟩ _ "d" hcarries rfl rfl hok
  -- The state is spelled out for the facts about it to be found as they are.
  dsimp only [s, fresh] at hlog ⊢
  rw [hlog] at hallowed hheld hblocked hfullscreen hsize
  rw [hallowed, hheld] at hdown
  exact ⟨hcalls, hallowed.trans (by decide), hblocked.trans (by decide), hdown.trans (by decide),
    hfullscreen.trans (by decide), halternates, d, hd, hsize.trans (by decide +kernel)⟩

end Interpreter

end Cutscene
