import Cutscene.Proofs.Stage.Hooks
import Cutscene.Proofs.Stage.Told
import Cutscene.Proofs.Text.Order

namespace Cutscene

namespace Named

variable {α : Type} {table : Named α}

def InByteOrder (table : Named α) : Prop :=
  table.Pairwise fun a b => Utf8.encode a.1.toList < Utf8.encode b.1.toList

theorem Sorted.inByteOrder (h : Sorted table) : InByteOrder table :=
  h.imp fun hlt => Utf8.encode_lt_encode hlt

theorem Sorted.nodup (h : Sorted table) : (table.map Prod.fst).Nodup :=
  List.pairwise_map.mpr (h.imp fun hlt => String.ne_of_lt hlt)

end Named

namespace Recording

variable {events : List Event}

theorem tellAll_of_heed (h : ∀ event ∈ events, ∀ r : Recording, r.heed event = r) (r : Recording) :
    host.tellAll events r = { r with recent := events.reverse ++ r.recent } := by
  induction events generalizing r with
  | nil => rfl
  | cons event events ih =>
      obtain ⟨hevent, hevents⟩ := List.forall_mem_cons.mp h
      calc host.tellAll (event :: events) r
          _ = host.tellAll events (r.tell event) := List.foldl_cons ..
          _ = host.tellAll events { r with recent := event :: r.recent } := by rw [tell, hevent]
          _ = { r with recent := (event :: events).reverse ++ r.recent } := by
            rw [ih hevents, List.reverse_cons, List.append_assoc]
            rfl

end Recording

namespace Interpreter

variable {τ : Type} {s : Interpreter Recording τ}

def shown (s : Interpreter Recording τ) : Named Drawing :=
  s.drawings.filter fun entry => entry.2.visible

theorem mem_shown_iff (h : s.drawings.Sorted) (name : String) (d : Drawing) :
    (name, d) ∈ s.shown ↔ s.drawings.get? name = some d ∧ d.visible = true := by
  rw [shown, List.mem_filter]
  exact and_congr_left' ⟨h.get?_of_mem, Named.mem_of_get?_eq_some⟩

/-- The events with which the drawings are drawn for a camera at this place. -/
def draws (camera : Vec) (table : Named Drawing) : List Event :=
  table.map fun entry => .draw entry.2.visual.label (entry.2.params camera)

theorem draw_eq (s : Interpreter Recording τ) :
    s.draw Recording.host = { s with
      world := { s.world with
        recent := (draws s.camera.position s.shown).reverse ++ s.world.recent } } := by
  have hquiet : ∀ event ∈ draws s.camera.position s.shown, ∀ r : Recording, r.heed event = r := by
    intro event hevent r
    obtain ⟨entry, -, rfl⟩ := List.mem_map.mp hevent
    rfl
  rw [← Recording.tellAll_of_heed hquiet]
  rfl

/-- Whatever an interpreter was asked, its drawings have names of their own, in the order of their
bytes. A frame draws the visible ones among them, in this order and once each, with the image and the
place that each has at the moment, as seen by the camera or, if it ignores the camera, as it is; and
nothing but the log of the host is different then. -/
theorem draw_in_byte_order {σ τ : Type} :
    (∀ (host : Host σ) (s : Interpreter σ τ), s.Reachable host →
      s.drawings.InByteOrder ∧ (s.drawings.map Prod.fst).Nodup) ∧
      ∀ s : Interpreter Recording τ, s.Reachable Recording.host →
        let drawn := s.draw Recording.host
        s.shown.InByteOrder ∧
          (∀ name d, (name, d) ∈ s.shown ↔ s.drawings.get? name = some d ∧ d.visible = true) ∧
          (∀ d : Drawing, (d.params s.camera.position).position =
            if d.ignoresCamera then d.motion.position else d.motion.position - s.camera.position) ∧
          drawn.world.events = s.world.events ++ draws s.camera.position s.shown ∧
          { drawn with world := s.world } = s ∧
          { drawn.world with recent := s.world.recent } = s.world := by
  refine ⟨fun host s h => ⟨h.sorted.inByteOrder, h.sorted.nodup⟩, ?_⟩
  intro s h drawn
  have hdrawn : drawn = _ := draw_eq s
  refine ⟨h.sorted.inByteOrder.filter _, mem_shown_iff h.sorted, fun d => rfl, ?_, ?_, ?_⟩
  · rw [hdrawn, Recording.events, List.reverse_append, List.reverse_reverse]
    rfl
  · rw [hdrawn]
  · rw [hdrawn]

/-- Drawings have been loaded in another order than that of their names, one of them twice, and one
of them is hidden. -/
def atCurtain : Interpreter Recording Unit :=
  let fresh : Interpreter Recording Unit := { world := .start [] Recording.defaultResolution }
  let load (name : String) : Instruction :=
    { command := .builtin .loadDrawing, strings := [name, "image.png"] }
  let reveal (name : String) : Instruction :=
    { command := .builtin .showDrawing, strings := [name] }
  let script := [load "épée", load "Zoé", load "ange", reveal "épée", reveal "ange", load "épée"]
  fresh.run Recording.host (.start script none 0 :: script.map fun _ => .update ⟨0⟩)

theorem draw_in_byte_order_atCurtain :
    let drawn := atCurtain.draw Recording.host
    atCurtain.drawings.InByteOrder ∧ atCurtain.shown.map Prod.fst = ["ange", "épée"] ∧
      (∀ d, ("Zoé", d) ∉ atCurtain.shown) ∧
      drawn.world.events =
        atCurtain.world.events ++ draws atCurtain.camera.position atCurtain.shown := by
  intro drawn
  have hreachable : atCurtain.Reachable Recording.host := (Reachable.fresh _).run _
  obtain ⟨horder, hdraw⟩ := draw_in_byte_order (σ := Recording) (τ := Unit)
  obtain ⟨-, hmem, -, hevents, -⟩ := hdraw atCurtain hreachable
  refine ⟨(horder Recording.host atCurtain hreachable).1, by decide +kernel, ?_, hevents⟩
  intro d hd
  have hhidden : (atCurtain.drawings.get? "Zoé").all (fun d => !d.visible) = true := by
    decide +kernel
  obtain ⟨hget, hvisible⟩ := (hmem "Zoé" d).mp hd
  rw [hget, Option.all_some, hvisible] at hhidden
  cases hhidden

end Interpreter

end Cutscene
