import Cutscene.Opcode
import Cutscene.Proofs.Text.Lower

namespace Cutscene.Opcode

theorem exists_letters_cons {o : Opcode} {os : List Opcode} {cs : List Char}
    {p : List (List Char) → Prop} (hname : o.name = String.ofList cs)
    (h : ∃ table, os.map name = table.map String.ofList ∧ p (cs :: table)) :
    ∃ table, (o :: os).map name = table.map String.ofList ∧ p table := by
  obtain ⟨table, htable, hp⟩ := h
  refine ⟨cs :: table, ?_, hp⟩
  rw [List.map_cons, List.map_cons, hname, htable]

/-- The catalog letter by letter, as strings are slow to take apart in a proof. -/
theorem exists_letters : ∃ table : List (List Char), all.map name = table.map String.ofList ∧
    (table.map (·.map Char.toLower)).Nodup ∧
      ∀ cs ∈ table, cs ≠ [] ∧ cs.all (fun c => c.isAlpha && c.toNat < 0x80) = true := by
  rw [all]
  repeat (refine exists_letters_cons rfl ?_)
  exact ⟨[], rfl, by decide +kernel⟩

theorem exists_letters_of_name (o : Opcode) : ∃ cs, o.name = String.ofList cs ∧ cs ≠ [] ∧
    ∀ c ∈ cs, c.isAlpha = true ∧ c.toNat < 0x80 := by
  obtain ⟨table, htable, -, hletters⟩ := exists_letters
  have hmem : o.name ∈ table.map String.ofList := by
    rw [← htable]
    exact List.mem_map_of_mem o.mem_all
  obtain ⟨cs, hcs, hname⟩ := List.mem_map.mp hmem
  obtain ⟨hne, hall⟩ := hletters cs hcs
  refine ⟨cs, hname.symm, hne, ?_⟩
  intro c hc
  simpa using List.all_eq_true.mp hall c hc

theorem eq_of_foldAscii_name_eq {o p : Opcode}
    (h : Text.foldAscii o.name = Text.foldAscii p.name) : o = p := by
  obtain ⟨table, htable, hnodup, -⟩ := exists_letters
  have hfolded : all.map (fun o => Text.foldAscii o.name) =
      (table.map (·.map Char.toLower)).map String.ofList := by
    have hmap := congrArg (List.map Text.foldAscii) htable
    simpa [List.map_map, Function.comp_def, Text.foldAscii] using hmap
  have hnodup' : (all.map fun o => Text.foldAscii o.name).Nodup := by
    rw [hfolded]
    exact hnodup.map fun _ _ h => String.ofList_injective h
  exact List.inj_on_of_nodup_map hnodup' o.mem_all p.mem_all h

theorem foldAscii_name_of_ofName? {s : String} {o : Opcode} (h : ofName? s = some o) :
    Text.foldAscii o.name = Text.foldAscii s := by
  rw [ofName?] at h
  simpa using List.find?_some h

theorem ofName?_eq_some_iff {s : String} {o : Opcode} :
    ofName? s = some o ↔ Text.foldAscii o.name = Text.foldAscii s := by
  constructor
  · exact foldAscii_name_of_ofName?
  · intro h
    cases hfind : ofName? s with
    | none =>
      have hall := List.find?_eq_none.mp hfind o o.mem_all
      exact absurd (beq_iff_eq.mpr h) hall
    | some p => rw [eq_of_foldAscii_name_eq ((foldAscii_name_of_ofName? hfind).trans h.symm)]

theorem ofName?_eq_none_iff {s : String} :
    ofName? s = none ↔ ∀ o : Opcode, Text.foldAscii o.name ≠ Text.foldAscii s := by
  simp only [Option.eq_none_iff_forall_ne_some, ne_eq, ofName?_eq_some_iff]

theorem toNat_lt_of_ofName? {s : String} {o : Opcode} (h : ofName? s = some o) :
    ∀ c ∈ s.toList, c.toNat < 0x80 := by
  have hfolded := foldAscii_name_of_ofName? h
  obtain ⟨cs, hname, -, hletters⟩ := exists_letters_of_name o
  rw [hname, Text.foldAscii, Text.foldAscii, String.toList_ofList] at hfolded
  have hmap : cs.map Char.toLower = s.toList.map Char.toLower := String.ofList_injective hfolded
  intro c hc
  have hmem : c.toLower ∈ cs.map Char.toLower := by
    rw [hmap]
    exact List.mem_map_of_mem hc
  obtain ⟨d, hd, hdc⟩ := List.mem_map.mp hmem
  apply Text.toNat_toLower_lt_iff.mp
  rw [← hdc]
  exact Text.toNat_toLower_lt_iff.mpr (hletters d hd).2

/-- Only a Kelvin sign makes a name of the catalog, when it is lowered, out of what was none. -/
theorem ofName?_lower {s : String} (hkelvin : '\u212A' ∉ s.toList) (h : ofName? s = none) :
    ofName? (Text.lower s) = none := by
  cases hfind : ofName? (Text.lower s) with
  | none => rfl
  | some o =>
    have hascii := toNat_lt_of_ofName? hfind
    rw [Text.lower, String.toList_ofList] at hascii
    have hlower := Text.lowerAfter_of_ascii hkelvin hascii
    have hsame : Text.foldAscii (Text.lower s) = Text.foldAscii s := by
      rw [Text.foldAscii, Text.foldAscii, Text.lower, String.toList_ofList, hlower, List.map_map]
      exact congrArg String.ofList
        (List.map_congr_left fun c _ => c.toLower_toLower_eq_toLower)
    have hfolded := foldAscii_name_of_ofName? hfind
    rw [hsame] at hfolded
    rw [ofName?_eq_some_iff.mpr hfolded] at h
    cases h

theorem exists_letters_of_lowerFirst (o : Opcode) : ∃ cs,
    Text.lowerFirst o.name = String.ofList cs ∧ Text.foldAscii (Text.lowerFirst o.name) =
      Text.foldAscii o.name ∧ cs ≠ [] ∧ ∀ c ∈ cs, c.isAlpha = true := by
  obtain ⟨cs, hname, hne, hletters⟩ := exists_letters_of_name o
  cases cs with
  | nil => exact absurd rfl hne
  | cons c cs =>
    obtain ⟨halpha, hascii⟩ := hletters c List.mem_cons_self
    have hfirst : Text.lowerFirst o.name = String.ofList (c.toLower :: cs) := by
      rw [hname, Text.lowerFirst, String.toList_ofList]
      simp only [Text.lowerChar, if_pos hascii]
      rfl
    refine ⟨c.toLower :: cs, hfirst, ?_, List.cons_ne_nil _ _, ?_⟩
    · rw [hfirst, hname, Text.foldAscii, Text.foldAscii, String.toList_ofList,
        String.toList_ofList, List.map_cons, List.map_cons, Char.toLower_toLower_eq_toLower]
    · intro d hd
      rcases List.mem_cons.mp hd with rfl | hd
      · rw [Char.isAlpha_toLower_eq_isAlpha]
        exact halpha
      · exact (hletters d (List.mem_cons_of_mem c hd)).1

end Cutscene.Opcode
