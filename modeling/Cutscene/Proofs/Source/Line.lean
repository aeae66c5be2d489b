import Cutscene.Proofs.Source.Value

namespace Cutscene

@[simp]
theorem Instruction.command_ofValues (command : Command) (vs : List Value) :
    (Instruction.ofValues command vs).command = command := rfl

theorem Instruction.ofValues_values (command : Command) (i : Instruction) :
    .ofValues command i.values = { i with command := command } := by
  have hnone {α β : Type} (as : List α) : as.filterMap (fun _ => (none : Option β)) = [] := by
    rw [List.filterMap_eq_nil_iff]
    exact fun _ _ => rfl
  simp [ofValues, values, List.filterMap_append, List.filterMap_map, hnone]

theorem Instruction.mem_values_ofValues {command : Command} {vs : List Value} {v : Value}
    (h : v ∈ (Instruction.ofValues command vs).values) : v ∈ vs := by
  have hpick {α : Type} {f : α → Value} {g : Value → Option α}
      (hg : ∀ w a, g w = some a → f a = w) (h : v ∈ (vs.filterMap g).map f) : v ∈ vs := by
    obtain ⟨a, ha, rfl⟩ := List.mem_map.mp h
    obtain ⟨w, hw, hwa⟩ := List.mem_filterMap.mp ha
    rw [hg w a hwa]
    exact hw
  simp only [values, List.mem_append] at h
  rcases h with ((((((h | h) | h) | h) | h) | h) | h) | h <;>
    refine hpick ?_ h <;> intro w a hwa <;> cases w <;> cases hwa <;> rfl

namespace Source

def code (line : List Char) : List Char :=
  (strip (line.filter (!isIgnored ·))).dropWhile (· == ' ')

structure IsName (cs : List Char) : Prop where
  ne_nil : cs ≠ []
  unbroken : ∀ c ∈ cs, c ≠ ' ' ∧ isIgnored c = false
  bare : Bare false cs

theorem tokenize_drop_one {text : List Char} (h : text = [] ∨ ∃ rest, text = ' ' :: rest) :
    tokenize (text.drop 1) = tokenize text := by
  rcases h with rfl | ⟨rest, rfl⟩
  · rfl
  · have hscan : tokenize (' ' :: rest) = (tokenize rest).map (flush []) := by
      simp [tokenize, scan]
    rw [hscan, List.drop_succ_cons, List.drop_zero]
    cases tokenize rest <;> rfl

theorem readLine_of_code {line name text : List Char} (hcode : code line = name ++ text)
    (hne : name ≠ []) (hname : ∀ c ∈ name, c ≠ ' ')
    (htext : text = [] ∨ ∃ rest, text = ' ' :: rest) :
    readLine line = (do
      let tokens ← tokenize text
      let values ← tokens.mapM Token.value
      .ok (some (.ofValues (Command.ofName (String.ofList name)) values))) := by
  have hpos : ∀ c ∈ name, (c != ' ') = true := fun c hc => bne_iff_ne.mpr (hname c hc)
  have htake : (name ++ text).takeWhile (· != ' ') = name := by
    rw [List.takeWhile_append_of_pos hpos]
    rcases htext with rfl | ⟨rest, rfl⟩ <;> simp
  have hdrop : (name ++ text).dropWhile (· != ' ') = text := by
    rw [List.dropWhile_append_of_pos hpos]
    rcases htext with rfl | ⟨rest, rfl⟩ <;> simp
  have hcode' : (strip (line.filter (!isIgnored ·))).dropWhile (· == ' ') = name ++ text := hcode
  rw [readLine, hcode']
  simp only [htake, hdrop, tokenize_drop_one htext]
  exact if_neg (by simp [hne])

theorem exists_name {line : List Char} (h : code line ≠ []) :
    ∃ name text, code line = name ++ text ∧ name ≠ [] ∧ (∀ c ∈ name, c ≠ ' ') ∧
      (text = [] ∨ ∃ rest, text = ' ' :: rest) := by
  refine ⟨(code line).takeWhile (· != ' '), (code line).dropWhile (· != ' '),
    List.takeWhile_append_dropWhile.symm, ?_, ?_, ?_⟩
  · have hfirst := List.head?_dropWhile_not (· == ' ') (strip (line.filter (!isIgnored ·)))
    rw [← code] at hfirst
    cases hcode : code line with
    | nil => exact absurd hcode h
    | cons c cs =>
      rw [hcode] at hfirst
      have hc : (c != ' ') = true := bne_iff_ne.mpr (beq_eq_false_iff_ne.mp hfirst)
      rw [List.takeWhile_cons, if_pos hc]
      exact List.cons_ne_nil _ _
  · intro c hc
    exact bne_iff_ne.mp (List.all_eq_true.mp List.all_takeWhile c hc)
  · have hfirst := List.head?_dropWhile_not (· != ' ') (code line)
    cases hrest : (code line).dropWhile (· != ' ') with
    | nil => exact .inl rfl
    | cons c rest =>
      rw [hrest] at hfirst
      exact .inr ⟨rest, by rw [bne_eq_false_iff_eq.mp hfirst]⟩

theorem mem_of_mem_code {line : List Char} {c : Char} (h : c ∈ code line) :
    c ∈ line ∧ isIgnored c = false := by
  have hfilter := mem_of_mem_stripFrom ((List.dropWhile_suffix _).subset h)
  simpa using List.mem_filter.mp hfilter

theorem exists_isName_of_readLine {line : List Char} {i : Instruction}
    (h : readLine line = .ok (some i)) :
    ∃ name, IsName name ∧ name ⊆ line ∧ i.command = Command.ofName (String.ofList name) ∧
      ∀ v ∈ i.values, v.Legible ∧ ∀ c ∈ v.chars, isIgnored c = false := by
  have hcode : code line ≠ [] := by
    intro hempty
    rw [code] at hempty
    rw [readLine, hempty] at h
    cases h
  obtain ⟨name, text, hsplit, hne, hname, htext⟩ := exists_name hcode
  have hmem {c : Char} (hc : c ∈ name ++ text) : c ∈ line ∧ isIgnored c = false :=
    mem_of_mem_code (hsplit ▸ hc)
  rw [readLine_of_code hsplit hne hname htext] at h
  obtain ⟨tokens, htokens, h⟩ := bind_eq_ok h
  obtain ⟨values, hvalues, h⟩ := bind_eq_ok h
  obtain rfl := Option.some.inj (Except.ok.inj h)
  refine ⟨name, ⟨hne, ?_, ?_⟩, fun c hc => (hmem (List.mem_append_left text hc)).1,
    Instruction.command_ofValues _ _, ?_⟩
  · exact fun c hc => ⟨hname c hc, (hmem (List.mem_append_left text hc)).2⟩
  · have hbare : Bare false (code line) := (bare_stripFrom false false _).dropWhile_space
    rw [hsplit] at hbare
    exact hbare.of_append
  · intro v hv
    obtain ⟨token, htoken, hvalue⟩ :=
      mem_of_mapM_eq_ok hvalues v (Instruction.mem_values_ofValues hv)
    obtain ⟨hlegible, hchars⟩ := legible_of_value hvalue
    have htext : ∀ c ∈ text, isIgnored c = false :=
      fun c hc => (hmem (List.mem_append_right name hc)).2
    exact ⟨hlegible, fun c hc => all_of_scan nofun htext htokens token htoken c (hchars c hc)⟩

def spaced (vs : List Value) : List Char := vs.flatMap fun v => ' ' :: write v

theorem spaced_cons (v : Value) (vs : List Value) :
    spaced (v :: vs) = ' ' :: (write v ++ spaced vs) := rfl

theorem readLine_of_code_spaced {line name : List Char} {vs : List Value}
    (hcode : code line = name ++ spaced vs) (hne : name ≠ []) (hname : ∀ c ∈ name, c ≠ ' ') :
    readLine line =
      .ok (some (.ofValues (Command.ofName (String.ofList name)) (vs.map Value.echo))) := by
  have htext : spaced vs = [] ∨ ∃ rest, spaced vs = ' ' :: rest := by
    cases vs with
    | nil => exact .inl rfl
    | cons v vs => exact .inr ⟨_, rfl⟩
  rw [readLine_of_code hcode hne hname htext, tokenize, spaced, scan_values, flush_nil]
  change ((vs.map Value.token).mapM Token.value).bind _ = _
  rw [mapM_value_token]
  rfl

theorem isIgnored_of_mem_spaced {vs : List Value}
    (h : ∀ v ∈ vs, ∀ c ∈ v.chars, isIgnored c = false) :
    ∀ c ∈ spaced vs, isIgnored c = false := by
  intro c hc
  obtain ⟨v, hv, hc⟩ := List.mem_flatMap.mp hc
  rcases List.mem_cons.mp hc with rfl | hc
  · rfl
  · exact isIgnored_of_mem_write (h v hv) c hc

theorem quiet_spaced (vs : List Value) : Quiet (spaced vs) :=
  Quiet.flatMap fun v _ => Quiet.cons (by decide) (by decide) (quiet_write v)

theorem readLine_of_isName {name : List Char} (hname : IsName name) {vs : List Value}
    (hvs : ∀ v ∈ vs, ∀ c ∈ v.chars, isIgnored c = false) :
    readLine (name ++ vs.flatMap fun v => ' ' :: write v) =
      .ok (some (.ofValues (Command.ofName (String.ofList name)) (vs.map Value.echo))) := by
  change readLine (name ++ spaced vs) = _
  have hunbroken : ∀ c ∈ name, c ≠ ' ' := fun c hc => (hname.unbroken c hc).1
  have hkept : ∀ c ∈ name ++ spaced vs, (!isIgnored c) = true := by
    intro c hc
    rw [Bool.not_eq_true']
    rcases List.mem_append.mp hc with hc | hc
    · exact (hname.unbroken c hc).2
    · exact isIgnored_of_mem_spaced hvs c hc
  have hstrip : strip (name ++ spaced vs) = name ++ spaced vs := by
    cases vs with
    | nil =>
      rw [spaced, List.flatMap_nil, List.append_nil]
      exact hname.bare.stripFrom_eq
    | cons v vs => exact hname.bare.append_space ((quiet_write v).append (quiet_spaced vs))
  have hcode : code (name ++ spaced vs) = name ++ spaced vs := by
    rw [code, List.filter_eq_self.mpr hkept, hstrip]
    cases name with
    | nil => exact absurd rfl hname.ne_nil
    | cons c cs =>
      rw [List.cons_append, List.dropWhile_cons,
        beq_eq_false_iff_ne.mpr (hunbroken c List.mem_cons_self)]
      rfl
  exact readLine_of_code_spaced hcode hname.ne_nil hunbroken

end Source

end Cutscene
