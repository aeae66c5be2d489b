import Cutscene.Program.Path
import Mathlib.Data.List.TakeWhile

namespace Cutscene.Path

structure Plain (name : String) : Prop where
  nonempty : name ≠ ""
  whole : '/' ∉ name.toList

structure Proper (name : String) : Prop extends Plain name where
  ne_dot : name ≠ "."
  ne_dots : name ≠ ".."

/-- Parts as they lead to a place: the outward ones come first. -/
def Place (place : List String) : Prop :=
  ∃ outward inward, place = outward ++ inward ∧
    (outward = ["/"] ∨ ∀ part ∈ outward, part = "..") ∧ ∀ name ∈ inward, Proper name

def Ends (path name : String) : Prop := path = name ∨ ∃ front, path = front ++ "/" ++ name

/-- The name consists of something and of the extension after a point. Just a point in front of that
would make two of them. -/
def Renamed (extension name : String) : Prop :=
  ∃ stem, name = stem ++ "." ++ extension ∧ stem ≠ "" ∧ stem ≠ "." ∧ '/' ∉ stem.toList

variable {path name extension : String} {place : List String}

theorem toList_slash (front name : String) :
    (front ++ "/" ++ name).toList = front.toList ++ '/' :: name.toList := by
  simp [String.toList_append]

theorem forall_ne_of_notMem {c : Char} {cs : List Char} (h : c ∉ cs) :
    ∀ d ∈ cs.reverse, (d != c) = true := by
  intro d hd
  apply bne_iff_ne.mpr
  rintro rfl
  exact h (List.mem_reverse.mp hd)

theorem plain_dot : Plain "." := ⟨by decide, by decide⟩

theorem plain_dots : Plain ".." := ⟨by decide, by decide⟩

theorem Plain.toList_ne_nil (h : Plain name) : name.toList ≠ [] :=
  fun hnil => h.nonempty (String.toList_eq_nil_iff.mp hnil)

theorem Plain.ne_slash (h : Plain name) : name ≠ "/" := by
  rintro rfl
  exact h.whole (by decide)

theorem Plain.head?_ne (h : Plain name) (rest : List Char) :
    (name.toList ++ rest).head? ≠ some '/' := by
  cases hname : name.toList with
  | nil => exact absurd hname h.toList_ne_nil
  | cons c cs =>
      rintro heq
      exact h.whole (hname ▸ List.mem_cons.mpr (.inl (Option.some.inj heq).symm))

theorem Plain.cases (h : Plain name) : name = "." ∨ name = ".." ∨ Proper name := by
  by_cases hdot : name = "."
  · exact .inl hdot
  · by_cases hdots : name = ".."
    · exact .inr (.inl hdots)
    · exact .inr (.inr ⟨h, hdot, hdots⟩)

section Names

theorem split_eq_splitOn (cs : List Char) : split cs = cs.splitOn '/' := by
  induction cs with
  | nil => rfl
  | cons c cs ih =>
      rw [split, List.splitOn_cons_eq_if_modifyHead, ih]
      by_cases hc : c = '/'
      · rw [if_pos hc, if_pos (beq_iff_eq.mpr hc)]
      · rw [if_neg hc, if_neg (mt beq_iff_eq.mp hc)]
        cases hparts : cs.splitOn '/' with
        | nil => exact absurd hparts (List.splitOn_ne_nil _ _)
        | cons part parts => rfl

theorem notMem_of_mem_split {cs part : List Char} (h : part ∈ split cs) : '/' ∉ part := by
  induction cs generalizing part with
  | nil =>
      rw [List.mem_singleton.mp h]
      exact List.not_mem_nil
  | cons c cs ih =>
      rw [split] at h
      by_cases hc : c = '/'
      · rw [if_pos hc] at h
        rcases List.mem_cons.mp h with rfl | h
        · exact List.not_mem_nil
        · exact ih h
      · rw [if_neg hc] at h
        have hnew : '/' ∉ [c] := fun hmem => hc (List.mem_singleton.mp hmem).symm
        cases hparts : split cs with
        | nil =>
            rw [hparts] at h
            rwa [List.mem_singleton.mp h]
        | cons first parts =>
            rw [hparts] at h ih
            rcases List.mem_cons.mp h with rfl | h
            · exact fun hmem => (List.mem_cons.mp hmem).elim
                (fun heq => hc heq.symm) (ih List.mem_cons_self)
            · exact ih (List.mem_cons_of_mem _ h)

def filled (cs : List Char) : List String := ((split cs).map String.ofList).filter (· != "")

theorem plain_of_mem_filled {cs : List Char} (h : name ∈ filled cs) : Plain name := by
  obtain ⟨hmem, hne⟩ := List.mem_filter.mp h
  obtain ⟨part, hpart, rfl⟩ := List.mem_map.mp hmem
  refine ⟨bne_iff_ne.mp hne, ?_⟩
  rw [String.toList_ofList]
  exact notMem_of_mem_split hpart

theorem filled_append_slash (cs ds : List Char) :
    filled (cs ++ '/' :: ds) = filled cs ++ filled ds := by
  simp only [filled, split_eq_splitOn, List.splitOn_append_cons_self, List.map_append,
    List.filter_append]

theorem filled_plain (h : Plain name) : filled name.toList = [name] := by
  rw [filled, split_eq_splitOn, List.splitOn_eq_singleton h.whole, List.map_singleton,
    String.ofList_toList, List.filter_eq_self]
  exact fun other hother => List.mem_singleton.mp hother ▸ bne_iff_ne.mpr h.nonempty

theorem filled_intercalate {names : List String} (h : ∀ name ∈ names, Plain name) :
    filled (String.intercalate "/" names).toList = names := by
  cases names with
  | nil => rfl
  | cons first names =>
      have hslash : ∀ part ∈ (first :: names).map String.toList, '/' ∉ part := by
        rintro part hpart
        obtain ⟨name, hname, rfl⟩ := List.mem_map.mp hpart
        exact (h name hname).whole
      rw [filled, String.toList_intercalate, split_eq_splitOn]
      change List.filter _ (List.map String.ofList
        (List.splitOn '/' (['/'].intercalate ((first :: names).map String.toList)))) = _
      rw [List.splitOn_intercalate '/' hslash (List.cons_ne_nil _ _), List.map_map]
      have hid : String.ofList ∘ String.toList = id := funext fun _ => String.ofList_toList
      rw [hid, List.map_id, List.filter_eq_self]
      exact fun name hname => bne_iff_ne.mpr (h name hname).nonempty

theorem names_eq (path : String) :
    names path = (if path.toList.head? = some '/' then ["/"] else []) ++ filled path.toList := rfl

theorem slash_or_plain_of_mem_names (h : name ∈ names path) : name = "/" ∨ Plain name := by
  rw [names_eq] at h
  rcases List.mem_append.mp h with h | h
  · split at h
    · exact .inl (List.mem_singleton.mp h)
    · cases h
  · exact .inr (plain_of_mem_filled h)

theorem slash_or_plain_of_mem_steps {target : String} (h : name ∈ steps target) :
    name = "/" ∨ Plain name := by
  rcases List.mem_append.mp h with h | h
  · exact slash_or_plain_of_mem_names h
  · split at h
    · exact .inr (List.mem_singleton.mp h ▸ plain_dot)
    · cases h

theorem Ends.names (h : Ends path name) (hname : Plain name) :
    ∃ front, Path.names path = front ++ [name] := by
  rcases h with rfl | ⟨front, rfl⟩
  · have hhead := hname.head?_ne []
    rw [List.append_nil] at hhead
    exact ⟨[], by rw [names_eq, if_neg hhead, filled_plain hname]⟩
  · rw [names_eq, toList_slash, filled_append_slash, filled_plain hname, ← List.append_assoc]
    exact ⟨_, rfl⟩

end Names

section Places

theorem place_nil : Place [] := ⟨[], [], rfl, .inr (by simp), by simp⟩

theorem Place.concat (h : Place place) (hname : Proper name) : Place (place ++ [name]) := by
  obtain ⟨outward, inward, rfl, houtward, hinward⟩ := h
  refine ⟨outward, inward ++ [name], List.append_assoc .., houtward, ?_⟩
  intro other hother
  rcases List.mem_append.mp hother with hother | hother
  · exact hinward other hother
  · exact List.mem_singleton.mp hother ▸ hname

theorem place_outward {outward : List String} (h : ∀ part ∈ outward, part = "..") :
    Place outward := ⟨outward, [], (List.append_nil _).symm, .inr h, by simp⟩

theorem all_isOutward {outward : List String}
    (h : outward = ["/"] ∨ ∀ part ∈ outward, part = "..") : outward.all isOutward = true := by
  rcases h with rfl | h
  · decide
  · exact List.all_eq_true.mpr fun part hpart => by rw [h part hpart]; decide

theorem Place.leave (h : Place place) :
    Place (leave place) ∧
      ((Path.leave place).all isOutward = true ∨ Path.leave place <+: place) := by
  obtain ⟨outward, inward, rfl, houtward, hinward⟩ := h
  rcases List.eq_nil_or_concat inward with rfl | ⟨inward, name, rfl⟩
  · rw [List.append_nil]
    rcases houtward with rfl | houtward
    · exact ⟨⟨["/"], [], rfl, .inl rfl, by simp⟩, .inl rfl⟩
    · have hleave : Path.leave outward = outward ++ [".."] := by
        rcases List.eq_nil_or_concat outward with rfl | ⟨outward, last, rfl⟩
        · rfl
        · have hlast : last = ".." := houtward last (by simp)
          rw [Path.leave, if_pos (by simp [hlast])]
          · simp
          · intro hslash
            exact absurd (houtward "/" (hslash ▸ List.mem_cons_self)) (by decide)
      have hall : ∀ part ∈ outward ++ [".."], part = ".." := by
        intro part hpart
        rcases List.mem_append.mp hpart with hpart | hpart
        · exact houtward part hpart
        · exact List.mem_singleton.mp hpart
      rw [hleave]
      exact ⟨place_outward hall, .inl (all_isOutward (.inr hall))⟩
  · rw [List.concat_eq_append] at hinward ⊢
    have hname : Proper name := hinward name (by simp)
    have hleave : Path.leave (outward ++ (inward ++ [name])) = outward ++ inward := by
      rw [← List.append_assoc, Path.leave, if_neg, List.dropLast_concat]
      · rw [List.getLast?_concat]
        exact fun heq => hname.ne_dots (Option.some.inj heq)
      · simp
      · intro hslash
        have hlast := congrArg List.getLast? hslash
        rw [List.getLast?_concat] at hlast
        exact hname.ne_slash (Option.some.inj hlast)
    rw [hleave]
    refine ⟨⟨outward, inward, rfl, houtward, fun other hother => hinward other ?_⟩, .inr ?_⟩
    · exact List.mem_append_left _ hother
    · rw [← List.append_assoc]
      exact List.prefix_append _ _

theorem follow_proper (h : Proper name) (place : List String) :
    follow place name = place ++ [name] := by
  rw [follow]
  · exact h.ne_slash
  · exact h.ne_dot
  · exact h.ne_dots

theorem Place.follow (h : Place place) (hname : name = "/" ∨ Plain name) :
    Place (Path.follow place name) := by
  rcases hname with rfl | hname
  · exact ⟨["/"], [], rfl, .inl rfl, by simp⟩
  · rcases hname.cases with rfl | rfl | hproper
    · exact h
    · exact h.leave.1
    · rw [follow_proper hproper]
      exact h.concat hproper

theorem key_of_plain {names : List String} (h : ∀ name ∈ names, Plain name) :
    key names = String.intercalate "/" names := by
  cases names with
  | nil => rfl
  | cons first names =>
      rw [key]
      intro rest hslash
      exact (h first List.mem_cons_self).ne_slash (List.cons.inj hslash).1

theorem names_key (h : Place place) : names (key place) = place := by
  obtain ⟨outward, inward, rfl, houtward, hinward⟩ := h
  have hplain : ∀ name ∈ inward, Plain name := fun name hname => (hinward name hname).toPlain
  rcases houtward with rfl | houtward
  · have hkey : (key (["/"] ++ inward)).toList = '/' :: (String.intercalate "/" inward).toList := by
      rw [List.singleton_append, key, String.toList_append]
      rfl
    have hfilled := filled_append_slash [] (String.intercalate "/" inward).toList
    rw [List.nil_append, filled_intercalate hplain] at hfilled
    rw [names_eq, hkey, List.head?_cons, if_pos rfl, hfilled]
    rfl
  · have hall : ∀ name ∈ outward ++ inward, Plain name := by
      intro name hname
      rcases List.mem_append.mp hname with hname | hname
      · exact houtward name hname ▸ plain_dots
      · exact hplain name hname
    rw [names_eq, key_of_plain hall, filled_intercalate hall, if_neg, List.nil_append]
    cases hnames : outward ++ inward with
    | nil => decide
    | cons first names =>
        have hfirst : Plain first := hall first (hnames ▸ List.mem_cons_self)
        rw [String.toList_intercalate, List.map_cons]
        cases names with
        | nil => simpa using hfirst.head?_ne []
        | cons second names =>
            rw [List.map_cons, List.intercalate_cons_cons, List.append_assoc]
            exact hfirst.head?_ne _

theorem key_injective {other : List String} (h : Place place) (hother : Place other)
    (hkey : key place = key other) : place = other := by
  rw [← names_key h, hkey, names_key hother]

end Places

section Last

theorem splitLast_of_notMem {last : List Char} (h : '/' ∉ last) : splitLast last = ([], last) := by
  have hall := forall_ne_of_notMem h
  rw [splitLast, List.dropWhile_eq_nil_iff.mpr hall, List.takeWhile_eq_self_iff.mpr hall,
    List.reverse_reverse]
  rfl

theorem splitLast_append_slash (front : List Char) {last : List Char} (h : '/' ∉ last) :
    splitLast (front ++ '/' :: last) = (front ++ ['/'], last) := by
  have hall := forall_ne_of_notMem h
  have hreverse : (front ++ '/' :: last).reverse = last.reverse ++ '/' :: front.reverse := by simp
  rw [splitLast, hreverse, List.dropWhile_append_of_pos hall, List.takeWhile_append_of_pos hall]
  simp

theorem dropTrailing_suffix (cs : List Char) : dropTrailing cs <:+ cs := by
  fun_induction dropTrailing cs with
  | case1 cs ih => exact ih.trans (List.suffix_cons _ _)
  | case2 cs ih => exact ih.trans (List.suffix_cons _ _)
  | case3 cs => exact List.suffix_refl _

theorem trimmed_eq (h : namesFolder path = false) : trimmed path = path.toList := by
  have hlength : path.toList.reverse.length ≤ (dropTrailing path.toList.reverse).length := by
    have hle := of_decide_eq_false h
    rw [trimmed, List.length_reverse] at hle
    rw [List.length_reverse, String.length_toList]
    exact Nat.not_lt.mp hle
  rw [trimmed, (dropTrailing_suffix _).eq_of_length_le hlength, List.reverse_reverse]

theorem dropTrailing_plain {cs : List Char} (hne : cs ≠ []) (hslash : '/' ∉ cs) (hdot : cs ≠ ['.'])
    (rest : List Char) : dropTrailing (cs ++ rest) = cs ++ rest := by
  cases cs with
  | nil => exact absurd rfl hne
  | cons c cs =>
      obtain ⟨hc, hcs⟩ := List.ne_and_not_mem_of_not_mem_cons hslash
      cases cs with
      | nil =>
          rw [dropTrailing]
          · rintro _ heq
            exact hc (List.cons.inj heq).1.symm
          · rintro _ heq
            exact hdot (by rw [(List.cons.inj heq).1])
      | cons d cs =>
          rw [dropTrailing]
          · rintro _ heq
            exact hc (List.cons.inj heq).1.symm
          · rintro _ heq
            exact hcs (by rw [(List.cons.inj (List.cons.inj heq).2).1]; exact List.mem_cons_self)

variable (h : Ends path name)

include h

theorem Ends.toList : ∃ front, path.toList = front ++ name.toList := by
  rcases h with rfl | ⟨front, rfl⟩
  · exact ⟨[], rfl⟩
  · exact ⟨front.toList ++ ['/'], by rw [toList_slash, List.append_assoc]; rfl⟩

theorem Ends.namesFolder (hname : Plain name) (hdot : name ≠ ".") :
    Path.namesFolder path = false := by
  obtain ⟨front, hpath⟩ := h.toList
  have hdot' : name.toList.reverse ≠ ['.'] := by
    intro heq
    apply hdot
    rw [← String.toList_inj, ← List.reverse_reverse name.toList, heq]
    rfl
  rw [Path.namesFolder, trimmed, hpath, List.reverse_append,
    dropTrailing_plain (mt List.reverse_eq_nil_iff.mp hname.toList_ne_nil)
      (mt List.mem_reverse.mp hname.whole) hdot', ← List.reverse_append, List.reverse_reverse,
    ← hpath, String.length_toList]
  exact decide_eq_false (Nat.lt_irrefl _)

theorem Ends.splitLast (hname : Plain name) :
    ∃ front, Path.splitLast path.toList = (front, name.toList) ∧
      path = String.ofList front ++ name ∧ ∀ other, Ends (String.ofList front ++ other) other := by
  rcases h with rfl | ⟨front, rfl⟩
  · refine ⟨[], splitLast_of_notMem hname.whole, String.empty_append.symm, fun other => .inl ?_⟩
    exact String.empty_append
  · have hfront : String.ofList (front.toList ++ ['/']) = front ++ "/" := by
      rw [← String.toList_inj, String.toList_ofList, String.toList_append]
      rfl
    refine ⟨front.toList ++ ['/'], ?_, ?_, fun other => .inr ⟨front, ?_⟩⟩
    · rw [toList_slash, splitLast_append_slash _ hname.whole]
    · rw [hfront]
    · rw [hfront]

theorem Ends.fileName? (hname : Proper name) : Path.fileName? path = some name := by
  obtain ⟨front, hsplit, -⟩ := h.splitLast hname.toPlain
  rw [Path.fileName?, trimmed_eq (h.namesFolder hname.toPlain hname.ne_dot), hsplit]
  have hnil := hname.toList_ne_nil
  have hdot : name.toList ≠ ['.'] := fun heq => hname.ne_dot (String.toList_inj.mp heq)
  have hdots : name.toList ≠ ['.', '.'] := fun heq => hname.ne_dots (String.toList_inj.mp heq)
  split
  · contradiction
  · contradiction
  · contradiction
  · rw [String.ofList_toList]

omit h

end Last

section Extension

theorem splitExtension_append {stem after : List Char} (hstem : stem ≠ []) (hpoint : '.' ∉ after) :
    splitExtension (stem ++ '.' :: after) = (stem, some after) := by
  have hall := forall_ne_of_notMem hpoint
  have hreverse : (stem ++ '.' :: after).reverse = after.reverse ++ '.' :: stem.reverse := by simp
  have hafter : ((stem ++ '.' :: after).reverse.takeWhile (· != '.')).reverse = after := by
    rw [hreverse, List.takeWhile_append_of_pos hall]
    simp
  have hlength : (stem ++ '.' :: after).length - after.length = (stem ++ ['.']).length := by
    simp only [List.length_append, List.length_cons, List.length_nil]
    omega
  have hbefore : ((stem ++ '.' :: after).take (stem ++ ['.']).length).dropLast = stem := by
    rw [List.append_cons stem '.' after, List.take_left, List.dropLast_concat]
  simp only [splitExtension, hafter, hlength, hbefore, if_neg hstem]

theorem Renamed.proper (h : Renamed extension name) (hextension : Proper extension) :
    Proper name := by
  obtain ⟨stem, rfl, hstem, -, hwhole⟩ := h
  have hlength : 2 < (stem ++ "." ++ extension).toList.length := by
    have hpos := List.length_pos_iff.mpr (mt String.toList_eq_nil_iff.mp hstem)
    have hpos' := List.length_pos_iff.mpr hextension.toList_ne_nil
    rw [String.toList_append, String.toList_append, List.length_append, List.length_append]
    have hpoint : ".".toList.length = 1 := by decide
    omega
  have hne : ∀ short : String, short.toList.length ≤ 2 → stem ++ "." ++ extension ≠ short := by
    rintro short hshort rfl
    omega
  refine ⟨⟨hne "" (by decide), ?_⟩, hne "." (by decide), hne ".." (by decide)⟩
  rw [String.toList_append, String.toList_append]
  intro hmem
  rcases List.mem_append.mp hmem with hmem | hmem
  · rcases List.mem_append.mp hmem with hmem | hmem
    · exact hwhole hmem
    · exact absurd hmem (by decide)
  · exact hextension.whole hmem

example : withExtension "in/..dream" "dcut" = "in/.." := by decide +kernel

theorem withExtension_eq_self (hname : Renamed extension name) (hextension : Proper extension)
    (hpoint : '.' ∉ extension.toList) (h : Ends path name) : withExtension path extension = path := by
  have hproper := hname.proper hextension
  obtain ⟨stem, rfl, hstem, hdot, -⟩ := hname
  obtain ⟨front, hsplit, hpath, -⟩ := h.splitLast hproper.toPlain
  have hcs : (stem ++ "." ++ extension).toList = stem.toList ++ '.' :: extension.toList := by
    simp [String.toList_append]
  have hne : stem.toList ≠ [] := mt String.toList_eq_nil_iff.mp hstem
  have hfolder := h.namesFolder hproper.toPlain hproper.ne_dot
  simp only [withExtension, h.fileName? hproper, trimmed_eq hfolder, hsplit, hcs,
    splitExtension_append hne hpoint]
  split
  · rename_i hmatch
    exact absurd (String.toList_inj.mp (Prod.mk.inj hmatch).1) hdot
  · rename_i hmatch
    rw [← (Prod.mk.inj hmatch).1, String.ofList_toList, hpath]
    simp only [String.append_assoc]

end Extension

section Joining

theorem Ends.join (h : Ends path name) (folder : String) : Ends (Path.join folder path) name := by
  rw [Path.join]
  split
  · rename_i hlast
    obtain ⟨front, hfolder⟩ := List.getLast?_eq_some_iff.mp hlast
    have hfolder : folder = String.ofList front ++ "/" := by
      rw [← String.toList_inj, hfolder, String.toList_append, String.toList_ofList]
      rfl
    rcases h with rfl | ⟨inner, rfl⟩
    · exact .inr ⟨_, by rw [hfolder]⟩
    · exact .inr ⟨folder ++ inner, by simp only [String.append_assoc]⟩
  · rcases h with rfl | ⟨inner, rfl⟩
    · exact .inr ⟨folder, rfl⟩
    · exact .inr ⟨folder ++ "/" ++ inner, by simp only [String.append_assoc]⟩

theorem ends_intercalate (names : List String) (name : String) :
    Ends (String.intercalate "/" (names ++ [name])) name := by
  by_cases hnames : names = []
  · rw [hnames, List.nil_append, String.intercalate_singleton]
    exact .inl rfl
  · rw [String.intercalate_append_of_ne_nil hnames (List.cons_ne_nil _ _),
      String.intercalate_singleton]
    exact .inr ⟨_, rfl⟩

theorem ends_key (hname : Plain name) (place : List String) : Ends (key (place ++ [name])) name := by
  by_cases hroot : ∃ inner, place = "/" :: inner
  · obtain ⟨inner, rfl⟩ := hroot
    rw [List.cons_append, key]
    rcases ends_intercalate inner name with heq | ⟨front, heq⟩
    · exact .inr ⟨"", by rw [heq, String.empty_append]⟩
    · exact .inr ⟨"/" ++ front, by rw [heq]; simp only [String.append_assoc]⟩
  · rw [key]
    · exact ends_intercalate place name
    · intro inner hinner
      rcases List.append_eq_cons_iff.mp hinner with ⟨rfl, heq⟩ | ⟨rest, hplace, -⟩
      · exact hname.ne_slash (List.cons.inj heq).1
      · exact hroot ⟨rest, hplace⟩

theorem Ends.drop (h : Ends path name) (hname : Plain name) {start : String}
    (hstart : start = "" ∨ ∃ folder, start = folder ++ "/")
    (hbegins : start.toList <+: path.toList) :
    Ends (String.ofList (path.toList.drop start.length)) name := by
  obtain ⟨rest, hrest⟩ := hbegins
  rw [← hrest, ← String.length_toList, List.drop_left]
  rcases hstart with rfl | ⟨folder, rfl⟩
  · rw [String.toList_empty, List.nil_append] at hrest
    rwa [hrest, String.ofList_toList]
  · rw [String.toList_append, List.append_assoc] at hrest
    change folder.toList ++ '/' :: rest = path.toList at hrest
    rcases h with rfl | ⟨front, rfl⟩
    · exact absurd (hrest ▸ List.mem_append_right _ List.mem_cons_self) hname.whole
    · rw [String.toList_append, String.toList_append, List.append_assoc] at hrest
      change folder.toList ++ '/' :: rest = front.toList ++ '/' :: name.toList at hrest
      rcases List.append_eq_append_iff.mp hrest with ⟨between, hfront, heq⟩ | ⟨between, -, heq⟩
      · cases between with
        | nil =>
            rw [(List.cons.inj heq).2, String.ofList_toList]
            exact .inl rfl
        | cons c between =>
            rw [(List.cons.inj heq).2]
            refine .inr ⟨String.ofList between, ?_⟩
            rw [← String.toList_inj]
            simp [String.toList_append]
      · cases between with
        | nil =>
            rw [← (List.cons.inj heq).2, String.ofList_toList]
            exact .inl rfl
        | cons c between =>
            -- The slash after the folder would be part of the name.
            rw [List.cons_append] at heq
            exact absurd ((List.cons.inj heq).2 ▸ List.mem_append_right _ List.mem_cons_self)
              hname.whole

end Joining

end Cutscene.Path
