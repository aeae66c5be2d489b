import Cutscene.Named

namespace Cutscene.Named

variable {α β : Type}

theorem get?_cons (name other : String) (a : α) (rest : Named α) :
    get? name ((other, a) :: rest) = if name = other then some a else get? name rest := by
  by_cases h : name = other
  · rw [if_pos h, h]
    exact List.lookup_cons_self
  · rw [if_neg h, get?, List.lookup_cons, beq_false_of_ne h]
    rfl

theorem get?_map (f : α → β) (name : String) (table : Named α) :
    get? name (table.map fun entry => (entry.1, f entry.2)) = (get? name table).map f := by
  induction table with
  | nil => rfl
  | cons entry table ih =>
      rw [List.map_cons, get?_cons, get?_cons, ih]
      by_cases h : name = entry.1
      · rw [if_pos h, if_pos h]
        rfl
      · rw [if_neg h, if_neg h]

theorem get?_modify (name other : String) (f : α → α) (table : Named α) :
    get? name (modify other f table) =
      if name = other then (get? name table).map f else get? name table := by
  induction table with
  | nil => simp [modify, get?]
  | cons entry table ih =>
      simp only [modify, List.map_cons] at ih ⊢
      rw [get?_cons, get?_cons, ih]
      by_cases hentry : name = entry.1
      · rw [if_pos hentry, if_pos hentry]
        by_cases hother : name = other
        · rw [if_pos hother, if_pos (hentry ▸ hother)]
          rfl
        · rw [if_neg hother, if_neg (hentry ▸ hother)]
      · rw [if_neg hentry, if_neg hentry]

theorem get?_insert (name other : String) (a : α) (table : Named α) :
    get? name (insert other a table) = if name = other then some a else get? name table := by
  induction table with
  | nil => exact get?_cons name other a []
  | cons entry table ih =>
      rw [insert]
      split
      · exact get?_cons name other a (entry :: table)
      · split
        · rename_i hother
          rw [get?_cons, get?_cons, ← hother]
          split <;> rfl
        · rename_i hother
          rw [get?_cons, get?_cons, ih]
          by_cases hname : name = other
          · rw [if_pos hname, if_pos hname, if_neg (hname ▸ hother)]
          · rw [if_neg hname, if_neg hname]

theorem get?_erase (name other : String) (table : Named α) :
    get? name (erase other table) = if name = other then none else get? name table := by
  induction table with
  | nil => simp [erase, get?]
  | cons entry table ih =>
      rw [erase, List.filter_cons]
      change get? name (if entry.1 != other then entry :: erase other table else erase other table) = _
      rw [get?_cons]
      by_cases hentry : entry.1 = other
      · rw [hentry, bne_self_eq_false, if_neg Bool.false_ne_true, ih]
        by_cases hname : name = other
        · rw [if_pos hname, if_pos hname]
        · rw [if_neg hname, if_neg hname, if_neg hname]
      · rw [if_pos (bne_iff_ne.mpr hentry), get?_cons, ih]
        by_cases hname : name = entry.1
        · rw [if_pos hname, if_pos hname, if_neg (hname ▸ hentry)]
        · rw [if_neg hname, if_neg hname]

theorem has_eq_isSome (name : String) (table : Named α) :
    has name table = (get? name table).isSome := rfl

theorem mem_of_get?_eq_some {name : String} {table : Named α} {a : α}
    (h : get? name table = some a) : (name, a) ∈ table := by
  obtain ⟨before, after, htable, -⟩ := List.lookup_eq_some_iff.mp h
  rw [htable]
  exact List.mem_append_right before List.mem_cons_self

theorem exists_get?_of_mem {name : String} {table : Named α} {a : α} (h : (name, a) ∈ table) :
    ∃ b, get? name table = some b := by
  induction table with
  | nil => cases h
  | cons entry table ih =>
      rw [get?_cons]
      by_cases hname : name = entry.1
      · exact ⟨_, if_pos hname⟩
      · rw [if_neg hname]
        rcases List.mem_cons.mp h with rfl | h
        · exact absurd rfl hname
        · exact ih h

def Sorted (table : Named α) : Prop := table.Pairwise fun a b => a.1 < b.1

theorem mem_keys_iff {name : String} {table : Named α} :
    name ∈ table.map (·.1) ↔ ∃ a, table.get? name = some a := by
  constructor
  · intro h
    obtain ⟨⟨name, a⟩, hmem, rfl⟩ := List.mem_map.mp h
    exact exists_get?_of_mem hmem
  · rintro ⟨a, h⟩
    exact List.mem_map_of_mem (mem_of_get?_eq_some h)

theorem Sorted.get?_of_mem {table : Named α} (h : Sorted table) {name : String} {a : α}
    (hmem : (name, a) ∈ table) : get? name table = some a := by
  induction table with
  | nil => cases hmem
  | cons entry table ih =>
      obtain ⟨hhead, htail⟩ := List.pairwise_cons.mp h
      rw [get?_cons]
      rcases List.mem_cons.mp hmem with rfl | hmem
      · exact if_pos rfl
      · have hlt : entry.1 < name := hhead _ hmem
        have hne : name ≠ entry.1 := by
          rintro rfl
          exact String.lt_irrefl _ hlt
        rw [if_neg hne]
        exact ih htail hmem

theorem eq_or_mem_of_mem_insert {name : String} {a : α} {table : Named α} {entry : String × α}
    (h : entry ∈ insert name a table) : entry.1 = name ∨ entry ∈ table := by
  induction table with
  | nil => exact .inl (congrArg Prod.fst (List.mem_singleton.mp h))
  | cons other table ih =>
      rw [insert] at h
      split at h
      · exact (List.mem_cons.mp h).imp_left (congrArg Prod.fst)
      · split at h
        · exact (List.mem_cons.mp h).imp (congrArg Prod.fst) (List.mem_cons_of_mem _)
        · rcases List.mem_cons.mp h with rfl | h
          · exact .inr List.mem_cons_self
          · exact (ih h).imp_right (List.mem_cons_of_mem _)

theorem Sorted.insert {table : Named α} (h : Sorted table) (name : String) (a : α) :
    Sorted (table.insert name a) := by
  induction table with
  | nil => exact List.pairwise_singleton _ _
  | cons other table ih =>
      obtain ⟨hhead, htail⟩ := List.pairwise_cons.mp h
      rw [Named.insert]
      split
      · rename_i hlt
        refine List.pairwise_cons.mpr ⟨fun entry hentry => ?_, h⟩
        rcases List.mem_cons.mp hentry with rfl | hentry
        · exact hlt
        · exact String.lt_trans hlt (hhead entry hentry)
      · rename_i hge
        split
        · rename_i heq
          exact List.pairwise_cons.mpr ⟨fun entry hentry => heq ▸ hhead entry hentry, htail⟩
        · rename_i hne
          refine List.pairwise_cons.mpr ⟨fun entry hentry => ?_, ih htail⟩
          rcases eq_or_mem_of_mem_insert hentry with hname | hentry
          · rw [hname]
            apply String.not_le.mp
            intro hle
            exact hne (String.le_antisymm hle (String.not_lt.mp hge))
          · exact hhead entry hentry

theorem Sorted.filter {table : Named α} (h : Sorted table) (keep : String × α → Bool) :
    Sorted (table.filter keep) := List.Pairwise.sublist List.filter_sublist h

theorem Sorted.map {table : Named α} (h : Sorted table) (f : String × α → β) :
    Sorted (table.map fun entry => (entry.1, f entry)) := List.pairwise_map.mpr h

end Cutscene.Named
