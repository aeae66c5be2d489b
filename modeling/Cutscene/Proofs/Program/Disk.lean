import Cutscene.Program.Disk
import Cutscene.Proofs.Except
import Cutscene.Proofs.Named
import Cutscene.Proofs.Program.Path

namespace Cutscene.Disk

open Cutscene.Path (Place Plain Proper Ends)

/-- No file is gone or has other bytes. -/
def Keeps (d later : Disk) : Prop :=
  ∀ path bytes, d.files.get? path = some bytes → later.files.get? path = some bytes

/-- Whoever gets somewhere by way of folders and links, gets there later too. -/
structure Leads (d later : Disk) : Prop where
  folders : ∀ place, Place place → d.entry place = .folder → later.entry place = .folder
  links : ∀ place target, Place place →
    (later.entry place = .link target ↔ d.entry place = .link target)

structure Grows (d later : Disk) : Prop extends Leads d later where
  files : d.Keeps later

structure Reached (d : Disk) (place : List String) : Prop where
  isPlace : Place place
  found : ∀ outer, outer <+: place → d.entry outer ≠ .vacant

/-- The names lead from one place to another. -/
inductive Walk (d : Disk) : Nat → List String → List String → List String → Prop
  | done {links : Nat} {place : List String} : Walk d links place [] place
  | link {links : Nat} {place names next inner : List String} {name target : String}
      (hplace : d.entry place = .folder) (hfollow : follow place name = .ok next)
      (hlink : d.entry next = .link target)
      (h : Walk d links place (Path.steps target ++ names) inner) :
      Walk d (links + 1) place (name :: names) inner
  | step {links : Nat} {place names next inner : List String} {name : String}
      (hplace : d.entry place = .folder) (hfollow : follow place name = .ok next)
      (hlink : ∀ target, d.entry next ≠ .link target) (h : Walk d links next names inner) :
      Walk d links place (name :: names) inner

variable {d later latest : Disk} {place inner outer names : List String} {path name : String}
  {bytes : List UInt8} {links : Nat}

theorem Keeps.refl (d : Disk) : Keeps d d := fun _ _ h => h

theorem Keeps.trans (h : Keeps d later) (h' : Keeps later latest) : Keeps d latest :=
  fun path bytes hfile => h' path bytes (h path bytes hfile)

theorem Grows.refl (d : Disk) : Grows d d where
  folders _ _ h := h
  links _ _ _ := .rfl
  files := Keeps.refl d

theorem Grows.trans (h : Grows d later) (h' : Grows later latest) : Grows d latest where
  folders place hplace hfolder := h'.folders place hplace (h.folders place hplace hfolder)
  links place target hplace := (h'.links place target hplace).trans (h.links place target hplace)
  files := h.files.trans h'.files

section Entries

theorem entry_outward (h : place.all Path.isOutward = true) : d.entry place = .folder := if_pos h

theorem entry_eq_file_iff : d.entry place = .file bytes ↔ place.all Path.isOutward = false ∧
    d.files.get? (Path.key place) = some bytes := by
  grind [Disk.entry]

theorem entry_eq_link_iff {target : String} : d.entry place = .link target ↔
    place.all Path.isOutward = false ∧ d.files.get? (Path.key place) = none ∧
      d.links.get? (Path.key place) = some target := by
  grind [Disk.entry]

theorem entry_eq_folder_iff : d.entry place = .folder ↔ place.all Path.isOutward = true ∨
    d.files.get? (Path.key place) = none ∧ d.links.get? (Path.key place) = none ∧
      d.holds place = true := by
  grind [Disk.entry]

theorem Grows.entry (h : Grows d later) (hplace : Place place) (hfound : d.entry place ≠ .vacant) :
    later.entry place = d.entry place := by
  cases hentry : d.entry place with
  | vacant => exact absurd hentry hfound
  | folder => exact h.folders place hplace hentry
  | link target => exact (h.links place target hplace).mpr hentry
  | file bytes =>
      obtain ⟨hinward, hfile⟩ := entry_eq_file_iff.mp hentry
      exact entry_eq_file_iff.mpr ⟨hinward, h.files _ _ hfile⟩

end Entries

section Walks

theorem follow_eq_ok (h : follow place name = .ok inner) : inner = Path.follow place name := by
  rw [follow] at h
  split at h
  · cases h
  · exact (Except.ok.inj h).symm

theorem walk_nil (d : Disk) (links : Nat) (place : List String) :
    d.walk links place [] = .ok place := by
  cases links <;> rfl

theorem walk_cons (d : Disk) (links : Nat) (place names : List String) (name : String) :
    d.walk links place (name :: names) =
      match d.entry place with
      | .folder =>
          match follow place name with
          | .error failure => .error failure
          | .ok next =>
              match d.entry next with
              | .link target =>
                  match links with
                  | 0 => .error .tooManyLinks
                  | links + 1 => d.walk links place (Path.steps target ++ names)
              | _ => d.walk links next names
      | .file _ => .error .notFolder
      | _ => .error .missing := by
  cases links <;> rfl

theorem Walk.eq_ok (h : Walk d links place names inner) : d.walk links place names = .ok inner := by
  induction h with
  | done => exact walk_nil d _ _
  | link hplace hfollow hlink h ih =>
      rw [walk_cons, hplace, hfollow]
      simp only [hlink]
      exact ih
  | @step links place names next inner name hplace hfollow hlink h ih =>
      rw [walk_cons, hplace, hfollow]
      cases hentry : d.entry next with
      | link target => exact absurd hentry (hlink target)
      | file | folder | vacant =>
          simp only [hentry]
          exact ih

/-- Between two links one goes on by names. -/
theorem walk_of_jumps (hjump : ∀ fewer, links = fewer + 1 → ∀ place names,
      d.walk fewer place names = .ok inner → Walk d fewer place names inner)
    (h : d.walk links place names = .ok inner) : Walk d links place names inner := by
  induction names generalizing place with
  | nil =>
      obtain rfl := Except.ok.inj ((walk_nil d links place).symm.trans h)
      exact .done
  | cons name names ih =>
      rw [walk_cons] at h
      cases hplace : d.entry place with
      | file | link | vacant =>
          rw [hplace] at h
          cases h
      | folder =>
          rw [hplace] at h
          cases hfollow : follow place name with
          | error failure =>
              rw [hfollow] at h
              cases h
          | ok next =>
              rw [hfollow] at h
              cases hnext : d.entry next with
              | link target =>
                  simp only [hnext] at h
                  cases links with
                  | zero => cases h
                  | succ fewer => exact .link hplace hfollow hnext (hjump fewer rfl _ _ h)
              | file | folder | vacant =>
                  simp only [hnext] at h
                  exact .step hplace hfollow (by simp [hnext]) (ih h)

theorem walk_eq_ok (h : d.walk links place names = .ok inner) : Walk d links place names inner := by
  induction links generalizing place names with
  | zero => exact walk_of_jumps (fun _ hfewer => absurd hfewer (Nat.succ_ne_zero _).symm) h
  | succ links ih =>
      refine walk_of_jumps (fun fewer hfewer place names hwalk => ?_) h
      obtain rfl := Nat.succ.inj hfewer
      exact ih hwalk

theorem Walk.concat (h : Walk d links place (names ++ [name]) inner) :
    ∃ outer left, Walk d links place names outer ∧ Walk d left outer [name] inner := by
  generalize hall : names ++ [name] = all at h
  induction h generalizing names with
  | done => simp at hall
  | @link links place others next inner other target hplace hfollow hlink h ih =>
      cases names with
      | nil =>
          obtain ⟨rfl, rfl⟩ := List.cons.inj hall
          exact ⟨place, links + 1, .done, .link hplace hfollow hlink h⟩
      | cons first names =>
          obtain ⟨rfl, rfl⟩ := List.cons.inj hall
          obtain ⟨outer, left, hfront, hlast⟩ := ih (List.append_assoc _ names _)
          exact ⟨outer, left, .link hplace hfollow hlink hfront, hlast⟩
  | @step links place others next inner other hplace hfollow hlink h ih =>
      cases names with
      | nil =>
          obtain ⟨rfl, rfl⟩ := List.cons.inj hall
          exact ⟨place, links, .done, .step hplace hfollow hlink h⟩
      | cons first names =>
          obtain ⟨rfl, rfl⟩ := List.cons.inj hall
          obtain ⟨outer, left, hfront, hlast⟩ := ih rfl
          exact ⟨outer, left, .step hplace hfollow hlink hfront, hlast⟩

theorem Walk.last (h : Walk d links outer [name] inner) : d.entry outer = .folder ∧
    ∃ next, follow outer name = .ok next ∧
      ((∃ target, d.entry next = .link target) ∨ inner = next) := by
  cases h with
  | link hplace hfollow hlink h => exact ⟨hplace, _, hfollow, .inl ⟨_, hlink⟩⟩
  | step hplace hfollow hlink h =>
      cases h
      exact ⟨hplace, _, hfollow, .inr rfl⟩

theorem Walk.ne_link (h : Walk d links place names inner)
    (hplace : ∀ target, d.entry place ≠ .link target) (target : String) :
    d.entry inner ≠ .link target := by
  induction h with
  | done => exact hplace target
  | link hplace' _ _ _ ih => exact ih hplace
  | step _ _ hlink _ ih => exact ih hlink

theorem Leads.walk (h : Leads d later) (hwalk : Walk d links place names inner)
    (hplace : Place place) (hnames : ∀ name ∈ names, name = "/" ∨ Plain name) :
    Walk later links place names inner := by
  induction hwalk with
  | done => exact .done
  | @link links place names next inner name target hfolder hfollow hlink _ ih =>
      have hnext : Place next := follow_eq_ok hfollow ▸ hplace.follow (hnames name List.mem_cons_self)
      refine .link (h.folders _ hplace hfolder) hfollow ((h.links _ _ hnext).mpr hlink)
        (ih hplace fun other hother => ?_)
      rcases List.mem_append.mp hother with hother | hother
      · exact Path.slash_or_plain_of_mem_steps hother
      · exact hnames other (List.mem_cons_of_mem _ hother)
  | @step links place names next inner name hfolder hfollow hlink _ ih =>
      have hnext : Place next := follow_eq_ok hfollow ▸ hplace.follow (hnames name List.mem_cons_self)
      exact .step (h.folders _ hplace hfolder) hfollow
        (fun target hlater => hlink target ((h.links _ _ hnext).mp hlater))
        (ih hnext fun other hother => hnames other (List.mem_cons_of_mem _ hother))

theorem Reached.nil : Reached d [] :=
  ⟨Path.place_nil, fun outer houter => by
    rw [List.prefix_nil.mp houter, entry_outward rfl]
    exact nofun⟩

theorem Reached.leave (h : Reached d place) : Reached d (Path.leave place) := by
  obtain ⟨hplace, hcases⟩ := h.isPlace.leave
  refine ⟨hplace, fun outer houter => ?_⟩
  rcases hcases with houtward | hbegins
  · rw [entry_outward]
    · exact nofun
    · rw [List.all_eq_true] at houtward ⊢
      exact fun part hpart => houtward part (houter.subset hpart)
  · exact h.found outer (houter.trans hbegins)

theorem Reached.follow (h : Reached d place) (hname : name = "/" ∨ Plain name)
    (hfound : d.entry (Path.follow place name) ≠ .vacant) :
    Reached d (Path.follow place name) := by
  rcases hname with rfl | hname
  · refine ⟨h.isPlace.follow (.inl rfl), fun outer houter => ?_⟩
    rw [entry_outward]
    · exact nofun
    · exact List.all_eq_true.mpr fun part hpart =>
        List.mem_singleton.mp (houter.subset hpart) ▸ rfl
  · rcases hname.cases with rfl | rfl | hproper
    · exact h
    · exact h.leave
    · rw [Path.follow_proper hproper] at hfound ⊢
      refine ⟨h.isPlace.concat hproper, fun outer houter => ?_⟩
      rcases List.prefix_concat_iff.mp houter with rfl | houter
      · exact hfound
      · exact h.found outer houter

theorem Reached.walk (h : Reached d place) (hwalk : Walk d links place names inner)
    (hnames : ∀ name ∈ names, name = "/" ∨ Plain name) : Place inner ∧
      (d.entry inner ≠ .vacant → Reached d inner) := by
  induction hwalk with
  | done => exact ⟨h.isPlace, fun _ => h⟩
  | link _ _ _ _ ih =>
      refine ih h fun other hother => ?_
      rcases List.mem_append.mp hother with hother | hother
      · exact Path.slash_or_plain_of_mem_steps hother
      · exact hnames other (List.mem_cons_of_mem _ hother)
  | @step links place names next inner name _ hfollow _ hrest ih =>
      obtain rfl := follow_eq_ok hfollow
      have hname := hnames name List.mem_cons_self
      by_cases hfound : d.entry (Path.follow place name) = .vacant
      · -- From there one cannot go on.
        cases hrest with
        | done => exact ⟨h.isPlace.follow hname, fun hne => absurd hfound hne⟩
        | link hfolder | step hfolder =>
            rw [hfound] at hfolder
            cases hfolder
      · exact ih (h.follow hname hfound)
          fun other hother => hnames other (List.mem_cons_of_mem _ hother)

end Walks

section Ways

theorem mem_dropLast_names (h : name ∈ (Path.names path).dropLast) : name = "/" ∨ Plain name :=
  Path.slash_or_plain_of_mem_names (List.dropLast_subset _ h)

theorem around_eq_ok_iff : d.around path = .ok outer ↔ ¬ maxPath < path.utf8ByteSize ∧
    Walk d maxLinks [] (Path.names path).dropLast outer ∧ d.entry outer = .folder := by
  rw [around]
  constructor
  · intro h
    split at h
    · cases h
    · obtain ⟨place, hwalk, h⟩ := bind_eq_ok h
      split at h
      · obtain rfl := Except.ok.inj h
        exact ⟨‹_›, walk_eq_ok hwalk, ‹_›⟩
      · cases h
      · cases h
  · rintro ⟨hshort, hwalk, hfolder⟩
    rw [if_neg hshort, hwalk.eq_ok]
    simp only [bind, Except.bind, hfolder]

theorem locate_eq_ok_iff : d.locate path = .ok place ↔ ¬ maxPath < path.utf8ByteSize ∧
    Walk d maxLinks [] (Path.names path) place := by
  rw [locate]
  constructor
  · intro h
    split at h
    · cases h
    · exact ⟨‹_›, walk_eq_ok h⟩
  · rintro ⟨hshort, hwalk⟩
    rw [if_neg hshort, hwalk.eq_ok]

theorem point_eq_ok (h : d.point path = .ok place) : ∃ outer, d.around path = .ok outer ∧
    follow outer ((Path.names path).getLastD ".") = .ok place := bind_eq_ok h

theorem reached_of_around (h : d.around path = .ok outer) : Reached d outer := by
  obtain ⟨-, hwalk, hfolder⟩ := around_eq_ok_iff.mp h
  exact (Reached.nil.walk hwalk fun _ => mem_dropLast_names).2 (hfolder ▸ nofun)

theorem place_of_locate (h : d.locate path = .ok place) : Place place :=
  (Reached.nil.walk (locate_eq_ok_iff.mp h).2 fun _ => Path.slash_or_plain_of_mem_names).1

theorem ne_link_of_locate (h : d.locate path = .ok place) (target : String) :
    d.entry place ≠ .link target := by
  refine (locate_eq_ok_iff.mp h).2.ne_link (fun other => ?_) target
  rw [entry_outward rfl]
  exact nofun

theorem point_of_locate (h : d.locate path = .ok place) :
    ∃ pointed, d.point path = .ok pointed ∧
      ((∃ target, d.entry pointed = .link target) ∨ place = pointed) := by
  obtain ⟨hshort, hwalk⟩ := locate_eq_ok_iff.mp h
  rcases List.eq_nil_or_concat (Path.names path) with hnil | ⟨front, last, hnames⟩
  · have haround : d.around path = .ok [] := by
      refine around_eq_ok_iff.mpr ⟨hshort, ?_, entry_outward rfl⟩
      rw [hnil]
      exact .done
    rw [hnil] at hwalk
    cases hwalk
    refine ⟨[], ?_, .inr rfl⟩
    rw [point, haround, hnil]
    rfl
  · rw [List.concat_eq_append] at hnames
    rw [hnames] at hwalk
    obtain ⟨outer, left, hfront, hlast⟩ := hwalk.concat
    obtain ⟨hfolder, pointed, hfollow, hcases⟩ := hlast.last
    have haround : d.around path = .ok outer := by
      refine around_eq_ok_iff.mpr ⟨hshort, ?_, hfolder⟩
      rw [hnames, List.dropLast_concat]
      exact hfront
    refine ⟨pointed, ?_, hcases⟩
    rw [point, haround, hnames, List.getLastD_concat]
    exact hfollow

theorem last_slash_or_plain (path : String) :
    (Path.names path).getLastD "." = "/" ∨ Plain ((Path.names path).getLastD ".") := by
  rcases List.eq_nil_or_concat (Path.names path) with hnil | ⟨front, last, hnames⟩
  · rw [hnil]
    exact .inr Path.plain_dot
  · have hlast : last ∈ Path.names path := by simp [hnames]
    rw [hnames, List.concat_eq_append, List.getLastD_concat]
    exact Path.slash_or_plain_of_mem_names hlast

theorem place_of_point (h : d.point path = .ok place) : Place place := by
  obtain ⟨outer, haround, hfollow⟩ := point_eq_ok h
  exact follow_eq_ok hfollow ▸ (reached_of_around haround).isPlace.follow (last_slash_or_plain path)

theorem Leads.locate (h : Leads d later) (hlocate : d.locate path = .ok place) :
    later.locate path = .ok place := by
  obtain ⟨hshort, hwalk⟩ := locate_eq_ok_iff.mp hlocate
  exact locate_eq_ok_iff.mpr
    ⟨hshort, h.walk hwalk Path.place_nil fun _ => Path.slash_or_plain_of_mem_names⟩

theorem Leads.point (h : Leads d later) (hpoint : d.point path = .ok place) :
    later.point path = .ok place := by
  obtain ⟨outer, haround, hfollow⟩ := point_eq_ok hpoint
  obtain ⟨hshort, hwalk, hfolder⟩ := around_eq_ok_iff.mp haround
  have hlater : later.around path = .ok outer :=
    around_eq_ok_iff.mpr ⟨hshort, h.walk hwalk Path.place_nil fun _ => mem_dropLast_names,
      h.folders _ (reached_of_around haround).isPlace hfolder⟩
  rw [Disk.point, hlater]
  exact hfollow

theorem Grows.lookUp (h : Grows d later) {e : Entry} (he : e ≠ .vacant)
    (hlook : d.lookUp path = .ok e) : later.lookUp path = .ok e := by
  obtain ⟨place, hlocate, hentry⟩ := map_eq_ok hlook
  rw [Disk.lookUp, h.locate hlocate]
  refine congrArg Except.ok ?_
  rw [h.entry (place_of_locate hlocate) (hentry ▸ he), hentry]

theorem has_eq_true (h : d.has path = true) : ∃ e : Entry, e ≠ .vacant ∧ d.lookUp path = .ok e := by
  rw [has] at h
  split at h
  · exact ⟨.file _, nofun, ‹_›⟩
  · exact ⟨.folder, nofun, ‹_›⟩
  · cases h

theorem Grows.has (h : Grows d later) (hhas : d.has path = true) : later.has path = true := by
  obtain ⟨e, he, hlook⟩ := has_eq_true hhas
  rw [Disk.has, h.lookUp he hlook]
  rwa [Disk.has, hlook] at hhas

theorem hasFolder_iff : d.hasFolder path = true ↔ d.lookUp path = .ok .folder := by
  rw [hasFolder]
  split
  · simp [*]
  · simp_all

theorem Grows.hasFolder (h : Grows d later) (hfolder : d.hasFolder path = true) :
    later.hasFolder path = true := hasFolder_iff.mpr (h.lookUp nofun (hasFolder_iff.mp hfolder))

theorem isLink_iff (hpoint : d.point path = .ok place) : d.isLink path = true ↔
    (∃ target, d.entry place = .link target) ∧ Path.namesFolder path = false := by
  rw [isLink, hpoint]
  cases hentry : d.entry place <;> simp [hentry]

theorem Grows.isLink (h : Grows d later) (hlocate : d.locate path = .ok place) :
    later.isLink path = d.isLink path := by
  obtain ⟨pointed, hpoint, -⟩ := point_of_locate hlocate
  have hsame (target : String) := h.links pointed target (place_of_point hpoint)
  rw [Bool.eq_iff_iff, isLink_iff hpoint, isLink_iff (h.point hpoint)]
  simp only [hsame]

end Ways

section Writing

theorem write_eq_ok (h : d.write path bytes = .ok later) :
    ∃ place, d.locate path = .ok place ∧ Path.namesFolder path = false ∧ d.entry place ≠ .folder ∧
      later = { d with files := d.files.insert (Path.key place) bytes } := by
  obtain ⟨outer, -, h⟩ := bind_eq_ok h
  split at h
  · cases h
  · obtain ⟨place, hlocate, h⟩ := bind_eq_ok h
    split at h
    · cases h
    · exact ⟨place, hlocate, eq_false_of_ne_true ‹_›, ‹_›, (Except.ok.inj h).symm⟩

theorem exists_write (h : d.write path bytes = .ok later) (other : List UInt8) :
    ∃ written, d.write path other = .ok written := by
  obtain ⟨place, hlocate, hfile, hfolder, -⟩ := write_eq_ok h
  obtain ⟨pointed, hpoint, -⟩ := point_of_locate hlocate
  obtain ⟨outer, haround, -⟩ := point_eq_ok hpoint
  refine ⟨{ d with files := d.files.insert (Path.key place) other }, ?_⟩
  rw [write, haround, hlocate, hfile]
  exact if_neg hfolder

theorem leads_insert (hplace : Place place) (hfolder : d.entry place ≠ .folder)
    (hlink : ∀ target, d.entry place ≠ .link target) (bytes : List UInt8) :
    Leads d { d with files := d.files.insert (Path.key place) bytes } := by
  -- Another place of the same key would be the same place.
  have hother {other : List String} (hisPlace : Place other) (hne : d.entry other ≠ d.entry place) :
      Path.key other ≠ Path.key place :=
    fun hkey => hne (Path.key_injective hisPlace hplace hkey ▸ rfl)
  refine ⟨fun other hisPlace hentry => ?_, fun other target hisPlace => ?_⟩
  · have hkey := hother hisPlace (hentry ▸ hfolder.symm)
    refine entry_eq_folder_iff.mpr ((entry_eq_folder_iff.mp hentry).imp_right ?_)
    rintro ⟨hfile, hnone, hholds⟩
    refine ⟨by rw [Named.get?_insert, if_neg hkey, hfile], hnone, ?_⟩
    simp only [holds, keys, Bool.or_eq_true, List.any_eq_true, List.mem_append] at hholds ⊢
    refine hholds.imp_right ?_
    rintro ⟨key, hmem, hbegins⟩
    refine ⟨key, hmem.imp_left fun hfile => ?_, hbegins⟩
    rw [Named.mem_keys_iff] at hfile ⊢
    rw [Named.get?_insert]
    split
    · exact ⟨_, rfl⟩
    · exact hfile
  · rw [entry_eq_link_iff, entry_eq_link_iff, Named.get?_insert]
    by_cases hkey : Path.key other = Path.key place
    · obtain rfl := Path.key_injective hisPlace hplace hkey
      rw [if_pos rfl]
      exact iff_of_false (fun h => nomatch h.2.1) fun h => hlink target (entry_eq_link_iff.mpr h)
    · rw [if_neg hkey]

/-- A written file is where its path leads, whatever was there before. -/
theorem lookUp_write (h : d.write path bytes = .ok later) :
    Path.namesFolder path = false ∧ later.lookUp path = .ok (.file bytes) := by
  obtain ⟨place, hlocate, hfile, hfolder, rfl⟩ := write_eq_ok h
  have hleads := leads_insert (place_of_locate hlocate) hfolder (ne_link_of_locate hlocate) bytes
  have hinward : place.all Path.isOutward = false := by
    rw [← Bool.not_eq_true]
    exact fun houtward => hfolder (entry_outward houtward)
  refine ⟨hfile, ?_⟩
  rw [lookUp, hleads.locate hlocate]
  refine congrArg Except.ok (entry_eq_file_iff.mpr ⟨hinward, ?_⟩)
  rw [Named.get?_insert, if_pos rfl]

theorem read_write (h : d.write path bytes = .ok later) : later.read path = .ok bytes := by
  obtain ⟨hfile, hlook⟩ := lookUp_write h
  simp [read, hlook, hfile, bind, Except.bind]

end Writing

section Making

end Making

section Within

def start (place : List String) : String := if place = [] then "" else Path.key place ++ "/"

theorem start_cases (place : List String) :
    start place = "" ∨ ∃ folder, start place = folder ++ "/" := by
  rw [start]
  split
  · exact .inl rfl
  · exact .inr ⟨_, rfl⟩

variable {root : String}

theorem mem_within_folder (hlocate : d.locate root = .ok place) (hfolder : d.entry place = .folder) :
    path ∈ d.within root ↔ ∃ file ∈ d.files, (start place).toList <+: file.1.toList ∧
      path = Path.join root (String.ofList (file.1.toList.drop (start place).length)) := by
  rw [within, hlocate]
  simp only [hfolder, inside, List.mem_map, List.mem_mergeSort, List.mem_filter,
    List.isPrefixOf_iff_prefix]
  constructor
  · rintro ⟨relative, ⟨key, ⟨⟨file, hfile, rfl⟩, hbegins⟩, rfl⟩, rfl⟩
    exact ⟨file, hfile, hbegins, rfl⟩
  · rintro ⟨file, hfile, hbegins, rfl⟩
    exact ⟨_, ⟨file.1, ⟨⟨file, hfile, rfl⟩, hbegins⟩, rfl⟩, rfl⟩

/-- A search that finds files finds them again, and besides them only files that are new. -/
theorem Grows.within (h : Grows d later) (hsome : d.within root ≠ []) :
    (∀ path ∈ d.within root, path ∈ later.within root) ∧
      ∀ path ∈ later.within root, path ∈ d.within root ∨
        ∃ file ∈ later.files, file.1 ∉ d.files.map Prod.fst ∧ ∃ place,
          (start place).toList <+: file.1.toList ∧
            path = Path.join root (String.ofList (file.1.toList.drop (start place).length)) := by
  cases hlocate : d.locate root with
  | error failure =>
      rw [Disk.within, hlocate] at hsome
      exact absurd rfl hsome
  | ok place =>
      have hlater := h.locate hlocate
      have hplace := place_of_locate hlocate
      cases hentry : d.entry place with
      | vacant =>
          rw [Disk.within, hlocate] at hsome
          simp [hentry] at hsome
      | link target => exact absurd hentry (ne_link_of_locate hlocate target)
      | file bytes =>
          have hsame : later.within root = d.within root := by
            rw [Disk.within, Disk.within, hlocate, hlater]
            simp only [h.entry hplace (hentry ▸ nofun), hentry, h.isLink hlocate]
          rw [hsame]
          exact ⟨fun _ hpath => hpath, fun _ hpath => .inl hpath⟩
      | folder =>
          have hfolder := h.folders place hplace hentry
          refine ⟨fun path hpath => ?_, fun path hpath => ?_⟩
          · obtain ⟨file, hfile, hbegins, rfl⟩ := (mem_within_folder hlocate hentry).mp hpath
            obtain ⟨bytes, hfound⟩ := Named.mem_keys_iff.mp (List.mem_map_of_mem hfile)
            have hmem := Named.mem_of_get?_eq_some (h.files _ _ hfound)
            exact (mem_within_folder hlater hfolder).mpr ⟨_, hmem, hbegins, rfl⟩
          · obtain ⟨file, hfile, hbegins, rfl⟩ := (mem_within_folder hlater hfolder).mp hpath
            by_cases hold : file.1 ∈ d.files.map Prod.fst
            · obtain ⟨old, hold, heq⟩ := List.mem_map.mp hold
              rw [← heq] at hbegins ⊢
              exact .inl ((mem_within_folder hlocate hentry).mpr ⟨old, hold, hbegins, rfl⟩)
            · exact .inr ⟨file, hfile, hold, place, hbegins, rfl⟩

end Within

end Cutscene.Disk
