import Cutscene.Proofs.Source.Rereading

namespace Cutscene

theorem Instruction.length_eq_of_agree {α : Type} {same : α → α → Bool} {as bs : List α}
    (h : agree same as bs = true) : as.length = bs.length := by
  induction as generalizing bs with
  | nil =>
    cases bs with
    | nil => rfl
    | cons b bs => cases h
  | cons a as ih =>
    cases bs with
    | nil => cases h
    | cons b bs =>
      rw [agree, Bool.and_eq_true] at h
      rw [List.length_cons, List.length_cons, ih h.2]

theorem Instruction.length_values_of_same {i j : Instruction} (h : j.same i = true) :
    j.values.length = i.values.length := by
  simp only [same, Bool.and_eq_true, beq_iff_eq] at h
  obtain ⟨⟨⟨⟨⟨⟨⟨⟨-, hbooleans⟩, hchars⟩, hstrings⟩, hdecimals⟩, hdoubles⟩, hfloats⟩, hints⟩,
    huints⟩ := h
  simp only [values, List.length_append, List.length_map, hbooleans, hchars, hstrings, hints,
    huints, length_eq_of_agree hdecimals, length_eq_of_agree hdoubles, length_eq_of_agree hfloats]

theorem Instruction.length_values_ofValues (command : Command) (vs : List Value) :
    (ofValues command vs).values.length = vs.length := by
  induction vs with
  | nil => rfl
  | cons v vs ih =>
    simp only [values, ofValues, List.length_append, List.length_map] at ih
    cases v <;> simp only [values, ofValues, List.filterMap_cons, List.length_append,
      List.length_map, List.length_cons] <;> omega

namespace Source

theorem splitLines_append {line : List Char} (h : '\n' ∉ line) (text : List Char) :
    splitLines (line ++ '\n' :: text) = line :: splitLines text := by
  induction line with
  | nil => rw [List.nil_append, splitLines, if_pos rfl]
  | cons c line ih =>
    simp only [List.mem_cons, not_or] at h
    rw [List.cons_append, splitLines, if_neg (Ne.symm h.1), ih h.2]

theorem writeText_cons (i : Instruction) (is : List Instruction) :
    writeText (i :: is) = writeLine i ++ '\n' :: writeText is := by
  rw [writeText, List.flatMap_cons, List.append_assoc]
  rfl

theorem splitLines_writeText {is : List Instruction} (h : ∀ i ∈ is, '\n' ∉ writeLine i) :
    splitLines (writeText is) = is.map writeLine := by
  induction is with
  | nil => rfl
  | cons i is ih =>
    rw [writeText_cons, splitLines_append (h i List.mem_cons_self), List.map_cons,
      ih fun j hj => h j (List.mem_cons_of_mem i hj)]

theorem Writable.isName {i : Instruction} (h : Writable i) :
    IsName (Text.lowerFirst i.command.name).toList := isName_lowerFirst_name h.name

theorem Writable.isIgnored {i : Instruction} (h : Writable i) :
    ∀ c ∈ writeLine i, isIgnored c = false := by
  intro c hc
  rcases List.mem_append.mp hc with hc | hc
  · exact (h.isName.unbroken c hc).2
  · exact isIgnored_of_mem_spaced h.clean c hc

theorem Writable.newline_not_mem {i : Instruction} (h : Writable i) : '\n' ∉ writeLine i := by
  intro hmem
  have hignored := h.isIgnored '\n' hmem
  cases hignored

theorem readText_writeText {is : List Instruction} (h : ∀ i ∈ is, Writable i) :
    readText (writeText is) = .ok (is.map reread) := by
  rw [readText, splitLines_writeText fun i hi => (h i hi).newline_not_mem]
  exact readLinesFrom_writeLine h 1

theorem head?_writeText_ne (is : List Instruction) : (writeText is).head? ≠ some 'D' := by
  have hother {c : Char} (hc : c ≠ 'D') (cs : List Char) : (c :: cs).head? ≠ some 'D' :=
    fun hhead => hc (Option.some.inj hhead)
  cases is with
  | nil =>
    intro hhead
    cases hhead
  | cons i is =>
    rw [writeText_cons, writeLine, List.append_assoc, Text.lowerFirst]
    cases i.command.name.toList with
    | nil =>
      rw [String.toList_empty, List.nil_append]
      cases i.values with
      | nil => exact hother (by decide) _
      | cons v vs => exact hother (by decide) _
    | cons c cs =>
      rw [String.toList_ofList]
      cases hlower : Text.lowerChar c with
      | nil => exact absurd hlower (Text.lowerChar_ne_nil c)
      | cons d ds =>
        have hsettled : Text.Settled d :=
          (Text.settled_of_mem_lowerChar (hlower ▸ List.mem_cons_self)).1
        apply hother
        rintro rfl
        exact absurd hsettled.lowerChar_eq (by decide)

theorem head?_ne_of_isAlpha {cs : List Char} {c : Char} (hcs : ∀ d ∈ cs, d.isAlpha = true)
    (hc : c.isAlpha = false) : cs.head? ≠ some c := by
  intro hhead
  have hletter := hcs c (List.mem_of_head? hhead)
  rw [hc] at hletter
  cases hletter

theorem head?_name_ne (o : Opcode) {c : Char} (hc : c.isAlpha = false) :
    o.name.toList.head? ≠ some c := by
  obtain ⟨cs, hname, -, hletters⟩ := o.exists_letters_of_name
  rw [hname, String.toList_ofList]
  exact head?_ne_of_isAlpha (fun d hd => (hletters d hd).1) hc

theorem head?_writeLine {i : Instruction} (h : Writable i) {c : Char} (hc : c.isAlpha = false) :
    (writeLine i).head? = some c ↔ i.command.name.toList.head? = some c := by
  rw [writeLine, List.head?_append_of_ne_nil _ h.isName.ne_nil]
  cases hcommand : i.command with
  | builtin o =>
    obtain ⟨cs, hlower, -, -, hletters⟩ := o.exists_letters_of_lowerFirst
    rw [Command.name, hlower, String.toList_ofList]
    exact iff_of_false (head?_ne_of_isAlpha hletters hc) (head?_name_ne o hc)
  | custom name =>
    rw [Command.name, Text.lowerFirst_of_lower_eq_self (h.name name hcommand).2]

theorem command_of_readLine {line : List Char} {i : Instruction}
    (h : readLine line = .ok (some i)) :
    i.command = Command.ofName (String.ofList ((code line).takeWhile (· != ' '))) := by
  rw [readLine, ← code] at h
  simp only at h
  split at h
  · cases h
  · obtain ⟨tokens, -, h⟩ := bind_eq_ok h
    obtain ⟨values, -, h⟩ := bind_eq_ok h
    rw [← Option.some.inj (Except.ok.inj h), Instruction.command_ofValues]

theorem toList_of_ofName {name : String} {cs : List Char}
    (h : Command.ofName (String.ofList cs) = .custom name) :
    name.toList = Text.lowerAfter [] cs := by
  rw [Command.ofName] at h
  split at h
  · cases h
  · cases h
    rw [Text.lower, String.toList_ofList, String.toList_ofList]

theorem write_cons (v : Value) : ∃ c cs, write v = c :: cs ∧ c ≠ ' ' ∧
    (' ' ∈ write v → c = '"' ∨ c = '\'') := by
  have hword {cs : List Char} (hne : cs ≠ []) (hspace : ' ' ∉ cs) :
      ∃ d ds, cs = d :: ds ∧ d ≠ ' ' ∧ (' ' ∈ cs → d = '"' ∨ d = '\'') := by
    cases cs with
    | nil => exact absurd rfl hne
    | cons d ds =>
      refine ⟨d, ds, rfl, ?_, fun h => absurd h hspace⟩
      rintro rfl
      exact hspace List.mem_cons_self
  rcases write_cases v with ⟨c, rfl⟩ | ⟨s, rfl⟩ | ⟨-, hne, hordinary⟩
  · exact ⟨_, _, rfl, by decide, fun _ => .inr rfl⟩
  · rw [write]
    split
    · exact ⟨_, _, rfl, by decide, fun _ => .inl rfl⟩
    · rename_i hquotes
      simp only [needsQuotes, Bool.or_eq_true, not_or] at hquotes
      apply hword
      · cases hs : s.toList with
        | nil => simp [hs] at hquotes
        | cons c cs =>
          rw [escape_cons]
          split <;> exact List.cons_ne_nil _ _
      · intro hspace
        rcases mem_escape hspace with hc | hmem
        · cases hc
        · simp [hmem] at hquotes
  · exact hword hne fun hspace => (ordinary_iff.mp (hordinary ' ' hspace)).2.1 rfl

theorem code_spaced_cons {v : Value} {vs : List Value}
    (h : ∀ w ∈ v :: vs, ∀ c ∈ w.chars, isIgnored c = false) :
    code (spaced (v :: vs)) = write v ++ spaced vs := by
  have hkept : ∀ c ∈ spaced (v :: vs), (!isIgnored c) = true := by
    intro c hc
    rw [isIgnored_of_mem_spaced h c hc]
    rfl
  have hstrip : strip (spaced (v :: vs)) = spaced (v :: vs) := (quiet_spaced _).stripFrom false
  obtain ⟨c, cs, hwrite, hc, -⟩ := write_cons v
  rw [code, List.filter_eq_self.mpr hkept, hstrip, spaced_cons, hwrite, List.cons_append,
    List.dropWhile_cons, if_pos (beq_self_eq_true ' '), List.dropWhile_cons,
    beq_eq_false_iff_ne.mpr hc]
  rfl

/-- Without its name a line is not read as the same instruction: its first value is taken for the
name, and if this has a space in it, the name begins with a quotation mark. -/
theorem not_same_of_unnamed {i j : Instruction} {name : String} (h : Writable i)
    (hcommand : i.command = .custom name) (hname : ∃ c, name.toList = [c] ∧ c ≠ '"' ∧ c ≠ '\'')
    (hread : readLine (spaced i.values) = .ok (some j)) : ¬ j.same i = true := by
  intro hsame
  cases hvalues : i.values with
  | nil =>
    rw [hvalues] at hread
    cases hread
  | cons v vs =>
    have hclean := h.clean
    rw [hvalues] at hread hclean
    have hcode := code_spaced_cons hclean
    obtain ⟨c, cs, hwrite, hc, hquote⟩ := write_cons v
    by_cases hspace : ' ' ∈ write v
    · -- The name that is read begins like the value.
      have hread' := command_of_readLine hread
      rw [hcode, hwrite, List.cons_append, List.takeWhile_cons, if_pos (bne_iff_ne.mpr hc),
        (eq_of_same hsame).1, hcommand] at hread'
      have hlower := toList_of_ofName hread'.symm
      obtain ⟨d, hd, hdouble, hsingle⟩ := hname
      have hfirst : d = c := by
        rw [hd] at hlower
        rcases hquote hspace with rfl | rfl
        · exact (List.cons.inj hlower).1
        · exact (List.cons.inj hlower).1
      rcases hquote hspace with rfl | rfl
      · exact hdouble hfirst
      · exact hsingle hfirst
    · -- The value is gone, so that there is one less.
      have hunbroken : ∀ d ∈ write v, d ≠ ' ' := by
        rintro d hd rfl
        exact hspace hd
      have hne : write v ≠ [] := by
        rw [hwrite]
        exact List.cons_ne_nil c cs
      rw [readLine_of_code_spaced hcode hne hunbroken] at hread
      obtain rfl := Option.some.inj (Except.ok.inj hread)
      have hlength := Instruction.length_values_of_same hsame
      rw [Instruction.length_values_ofValues, List.length_map, hvalues, List.length_cons] at hlength
      omega

theorem not_same_of_beheaded {i j : Instruction} {name : String} {c : Char} {word : List Char}
    (h : Writable i) (hcommand : i.command = .custom name) (hname : name.toList = c :: word)
    (hc : isSpecial c = false) (hread : readLine (word ++ spaced i.values) = .ok (some j)) :
    ¬ j.same i = true := by
  obtain ⟨his, hlower⟩ := h.name name hcommand
  rw [hname] at his
  simp only [isSpecial, Bool.or_eq_false_iff, beq_eq_false_iff_ne] at hc
  by_cases hword : word = []
  · rw [hword, List.nil_append] at hread
    exact not_same_of_unnamed h hcommand ⟨c, by rw [hname, hword], hc.1.1.2, hc.1.2⟩ hread
  · intro hsame
    have hrest : IsName word := by
      refine ⟨hword, fun d hd => his.unbroken d (List.mem_cons_of_mem c hd), ?_⟩
      cases his.bare with
      | backslash => exact absurd rfl hc.2
      | cons _ _ hbare => exact hbare
    have hread' := readLine_of_isName hrest h.clean
    rw [← spaced, hread] at hread'
    obtain rfl := Option.some.inj (Except.ok.inj hread')
    have hsettled := Text.lower_eq_self_iff.mp hlower
    rw [hname] at hsettled
    -- The name that is read is one character too short.
    have hshort := (eq_of_same hsame).1
    rw [Instruction.command_ofValues, hcommand] at hshort
    have hwhole := toList_of_ofName hshort
    rw [Text.lowerAfter_of_settled fun d hd => hsettled d (List.mem_cons_of_mem c hd), hname]
      at hwhole
    exact List.cons_ne_self c word hwhole

end Source

end Cutscene
