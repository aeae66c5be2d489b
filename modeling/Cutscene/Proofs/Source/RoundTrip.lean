import Cutscene.Proofs.Opcode
import Cutscene.Proofs.Source.Line

namespace Cutscene.Source

theorem bare_of_ordinary {cs : List Char} (h : ∀ c ∈ cs, isOrdinary c = true) : Bare false cs := by
  rw [← List.append_nil cs]
  refine Bare.append_plain ?_ .nil
  intro c hc
  have hspecial := (ordinary_iff.mp (h c hc)).1
  constructor
  · rintro rfl
    cases hspecial
  · rintro rfl
    cases hspecial

theorem isName_of_ordinary {cs : List Char} (hne : cs ≠ []) (h : ∀ c ∈ cs, isOrdinary c = true) :
    IsName cs := by
  refine ⟨hne, ?_, bare_of_ordinary h⟩
  exact fun c hc => (ordinary_iff.mp (h c hc)).2

theorem isName_lowerFirst (o : Opcode) : IsName (Text.lowerFirst o.name).toList ∧
    Command.ofName (Text.lowerFirst o.name) = .builtin o := by
  obtain ⟨cs, hname, hfolded, hne, hletters⟩ := o.exists_letters_of_lowerFirst
  constructor
  · rw [hname, String.toList_ofList]
    apply isName_of_ordinary hne
    exact fun c hc => isOrdinary_of (by decide) (hletters c hc)
  · rw [Command.ofName, Opcode.ofName?_eq_some_iff.mpr hfolded.symm]

theorem IsName.lower {cs : List Char} (h : IsName cs) :
    IsName (Text.lower (String.ofList cs)).toList := by
  rw [Text.lower, String.toList_ofList, String.toList_ofList]
  refine ⟨?_, ?_, h.bare.lowerAfter⟩
  · cases cs with
    | nil => exact absurd rfl h.ne_nil
    | cons c cs =>
      obtain ⟨lowered, hlowered, hne, -⟩ := Text.lowerAfter_cons [] cs c
      rw [hlowered]
      exact List.append_ne_nil_of_left_ne_nil hne _
  · intro c hc
    rcases Text.mem_lowerAfter hc with hc | hletter
    · exact h.unbroken c hc
    · have hordinary : isOrdinary c = true :=
        isOrdinary_of (p := fun c => c.isLower || 0x80 ≤ c.toNat) (by decide)
          (by simpa using hletter)
      exact (ordinary_iff.mp hordinary).2

theorem length_strings_cons (command : Command) (v : Value) (vs : List Value) :
    (Instruction.ofValues command (v :: vs)).strings.length =
      (Instruction.ofValues command [v]).strings.length +
        (Instruction.ofValues command vs).strings.length := by
  rw [← List.singleton_append]
  simp only [Instruction.ofValues, List.filterMap_append, List.length_append]

theorem strings_of_not_legible (command : Command) {v : Value} (h : ¬ v.Legible) :
    (Instruction.ofValues command [v]).strings = [] ∧
      (Instruction.ofValues command [v.echo]).strings = [String.ofList (write v)] := by
  rw [Value.echo, if_neg h]
  cases v with
  | boolean | char | string | uint => exact absurd trivial h
  | decimal | double | float | int => exact ⟨rfl, rfl⟩

theorem length_strings_le (command : Command) (vs : List Value) :
    (Instruction.ofValues command vs).strings.length ≤
      (Instruction.ofValues command (vs.map Value.echo)).strings.length := by
  induction vs with
  | nil => exact Nat.le_refl _
  | cons v vs ih =>
    rw [List.map_cons, length_strings_cons, length_strings_cons _ v.echo]
    by_cases hv : v.Legible
    · rw [Value.echo, if_pos hv]
      omega
    · obtain ⟨hnone, -⟩ := strings_of_not_legible command hv
      rw [hnone, List.length_nil]
      omega

theorem legible_of_length_strings {command : Command} {vs : List Value}
    (h : (Instruction.ofValues command (vs.map Value.echo)).strings.length ≤
      (Instruction.ofValues command vs).strings.length) : ∀ v ∈ vs, v.Legible := by
  induction vs with
  | nil => exact nofun
  | cons v vs ih =>
    rw [List.map_cons, length_strings_cons, length_strings_cons _ v] at h
    by_cases hv : v.Legible
    · rw [Value.echo, if_pos hv] at h
      intro w hw
      rcases List.mem_cons.mp hw with rfl | hw
      · exact hv
      · exact ih (by omega) w hw
    · obtain ⟨hnone, hone⟩ := strings_of_not_legible command hv
      have hle := length_strings_le command vs
      rw [hnone, hone, List.length_nil, List.length_singleton] at h
      omega

/-- An instruction that comes back from its line: its name is one that the language does not know
and that reads as it is written, and its values are such as the line can hold. -/
structure Survives (i : Instruction) : Prop where
  name : ∀ name, i.command = .custom name →
    name ≠ "" ∧ (∀ c ∈ name.toList, c ≠ ' ' ∧ c ≠ '\t' ∧ c ≠ '\r' ∧ c ≠ '\n') ∧
      strip name.toList = name.toList ∧ Text.lower name = name ∧
        ∀ o : Opcode, Text.foldAscii o.name ≠ Text.foldAscii name
  chars : ∀ c ∈ i.chars, c ≠ '\t' ∧ c ≠ '\r' ∧ c ≠ '\n'
  strings : ∀ s ∈ i.strings, ∀ c ∈ s.toList, c ≠ '\t' ∧ c ≠ '\r' ∧ c ≠ '\n'
  ints : ∀ n ∈ i.ints, 0 ≤ n.toInt
  decimals : ∀ d ∈ i.decimals, 0 ≤ d.mantissa
  doubles : ∀ x ∈ i.doubles, ∃ units,
    Number.Format.double.quantity x.bits.toNat = .finite false units
  floats : ∀ x ∈ i.floats, ∃ units,
    Number.Format.single.quantity x.bits.toNat = .finite false units

theorem isIgnored_eq_false_iff {c : Char} :
    isIgnored c = false ↔ c ≠ '\t' ∧ c ≠ '\r' ∧ c ≠ '\n' := by
  simp [isIgnored, and_comm]

theorem isName_toList_iff {name : String} : IsName name.toList ↔
    name ≠ "" ∧ (∀ c ∈ name.toList, c ≠ ' ' ∧ c ≠ '\t' ∧ c ≠ '\r' ∧ c ≠ '\n') ∧
      strip name.toList = name.toList := by
  simp only [← isIgnored_eq_false_iff]
  constructor
  · intro h
    refine ⟨?_, h.unbroken, h.bare.stripFrom_eq⟩
    rintro rfl
    exact h.ne_nil rfl
  · rintro ⟨hne, hunbroken, hstrip⟩
    exact ⟨fun hnil => hne (String.toList_eq_nil_iff.mp hnil), hunbroken,
      bare_of_stripFrom_eq hstrip⟩

theorem forall_mem_values {p : Value → Prop} {i : Instruction} : (∀ v ∈ i.values, p v) ↔
    (∀ b ∈ i.booleans, p (.boolean b)) ∧ (∀ c ∈ i.chars, p (.char c)) ∧
      (∀ s ∈ i.strings, p (.string s)) ∧ (∀ d ∈ i.decimals, p (.decimal d)) ∧
        (∀ x ∈ i.doubles, p (.double x)) ∧ (∀ x ∈ i.floats, p (.float x)) ∧
          (∀ n ∈ i.ints, p (.int n)) ∧ ∀ n ∈ i.uints, p (.uint n) := by
  simp [Instruction.values, or_imp, forall_and, and_assoc]

/-- Instructions that a line can hold. One of them is misread if the catalog has its custom name. -/
structure Writable (i : Instruction) : Prop where
  name : ∀ name, i.command = .custom name → IsName name.toList ∧ Text.lower name = name
  legible : ∀ v ∈ i.values, v.Legible
  clean : ∀ v ∈ i.values, ∀ c ∈ v.chars, isIgnored c = false

theorem survives_iff {i : Instruction} : Survives i ↔
    Writable i ∧ ∀ name, i.command = .custom name → Opcode.ofName? name = none := by
  simp only [Opcode.ofName?_eq_none_iff]
  have hvalues : (∀ v ∈ i.values, v.Legible ∧ ∀ c ∈ v.chars, isIgnored c = false) ↔
      (∀ c ∈ i.chars, c ≠ '\t' ∧ c ≠ '\r' ∧ c ≠ '\n') ∧
        (∀ s ∈ i.strings, ∀ c ∈ s.toList, c ≠ '\t' ∧ c ≠ '\r' ∧ c ≠ '\n') ∧
          (∀ d ∈ i.decimals, 0 ≤ d.mantissa) ∧
            (∀ x ∈ i.doubles, ∃ units,
              Number.Format.double.quantity x.bits.toNat = .finite false units) ∧
              (∀ x ∈ i.floats, ∃ units,
                Number.Format.single.quantity x.bits.toNat = .finite false units) ∧
                ∀ n ∈ i.ints, 0 ≤ n.toInt := by
    simp only [forall_mem_values, Value.Legible, Value.chars, List.mem_singleton,
      List.not_mem_nil, false_imp_iff, implies_true, forall_eq, true_and, and_true,
      isIgnored_eq_false_iff, Number.Format.quantity_eq_finite_iff]
  constructor
  · intro h
    have hall := hvalues.mpr ⟨h.chars, h.strings, h.decimals, h.doubles, h.floats, h.ints⟩
    refine ⟨⟨?_, fun v hv => (hall v hv).1, fun v hv => (hall v hv).2⟩, ?_⟩
    · intro name hname
      obtain ⟨hne, hunbroken, hstrip, hlower, -⟩ := h.name name hname
      exact ⟨isName_toList_iff.mpr ⟨hne, hunbroken, hstrip⟩, hlower⟩
    · intro name hname
      exact (h.name name hname).2.2.2.2
  · rintro ⟨h, hcatalog⟩
    obtain ⟨hchars, hstrings, hdecimals, hdoubles, hfloats, hints⟩ :=
      hvalues.mp fun v hv => ⟨h.legible v hv, h.clean v hv⟩
    refine ⟨?_, hchars, hstrings, hints, hdecimals, hdoubles, hfloats⟩
    intro name hname
    obtain ⟨his, hlower⟩ := h.name name hname
    obtain ⟨hne, hunbroken, hstrip⟩ := isName_toList_iff.mp his
    exact ⟨hne, hunbroken, hstrip, hlower, hcatalog name hname⟩

theorem writable_of_readLine {line : List Char} {i : Instruction}
    (h : readLine line = .ok (some i)) : Writable i := by
  obtain ⟨name, hname, -, hcommand, hvalues⟩ := exists_isName_of_readLine h
  refine ⟨?_, fun v hv => (hvalues v hv).1, fun v hv => (hvalues v hv).2⟩
  intro custom hcustom
  rw [hcommand, Command.ofName] at hcustom
  split at hcustom
  · cases hcustom
  · cases hcustom
    exact ⟨hname.lower, Text.lower_lower _⟩

theorem isName_lowerFirst_name {command : Command} (h : ∀ name, command = .custom name →
    IsName name.toList ∧ Text.lower name = name) :
    IsName (Text.lowerFirst command.name).toList := by
  cases hcommand : command with
  | builtin o =>
    rw [Command.name]
    exact (isName_lowerFirst o).1
  | custom name =>
    obtain ⟨his, hlower⟩ := h name hcommand
    rw [Command.name, Text.lowerFirst_of_lower_eq_self hlower]
    exact his

theorem readLine_writeLine {i : Instruction}
    (hname : ∀ name, i.command = .custom name → IsName name.toList ∧ Text.lower name = name)
    (hclean : ∀ v ∈ i.values, ∀ c ∈ v.chars, isIgnored c = false) :
    readLine (writeLine i) = .ok (some
      (.ofValues (Command.ofName (Text.lowerFirst i.command.name)) (i.values.map Value.echo))) := by
  have hread := readLine_of_isName (isName_lowerFirst_name hname) hclean
  rw [String.ofList_toList] at hread
  exact hread

/-- What the line of a writable instruction is read as. -/
def reread (i : Instruction) : Instruction :=
  { i with command := Command.ofName (Text.lowerFirst i.command.name) }

theorem command_reread (i : Instruction) :
    (reread i).command = Command.ofName (Text.lowerFirst i.command.name) := by
  simp only [reread]

theorem reread_eq_self {i : Instruction} (h : (reread i).command = i.command) : reread i = i := by
  rw [command_reread] at h
  rw [reread, h]

theorem readLine_writeLine_of_writable {i : Instruction} (h : Writable i) :
    readLine (writeLine i) = .ok (some (reread i)) := by
  have hecho : ∀ v ∈ i.values, v.echo = id v := fun v hv => if_pos (h.legible v hv)
  rw [readLine_writeLine h.name h.clean, List.map_congr_left hecho, List.map_id,
    Instruction.ofValues_values, reread]

theorem command_reread_iff {i : Instruction} (h : Writable i) :
    (reread i).command = i.command ↔
      ∀ name, i.command = .custom name → Opcode.ofName? name = none := by
  rw [command_reread]
  cases hcommand : i.command with
  | builtin o =>
    rw [Command.name, (isName_lowerFirst o).2]
    exact ⟨fun _ => nofun, fun _ => rfl⟩
  | custom name =>
    obtain ⟨-, hlower⟩ := h.name name hcommand
    rw [Command.name, Text.lowerFirst_of_lower_eq_self hlower, Command.ofName]
    cases hfind : Opcode.ofName? name with
    | some o =>
      refine ⟨fun h => ?_, fun h => ?_⟩
      · cases h
      · have hnone := h name rfl
        rw [hfind] at hnone
        cases hnone
    | none =>
      rw [hlower]
      refine ⟨fun _ _ h => ?_, fun _ => rfl⟩
      cases h
      exact hfind

theorem agree_self {α : Type} {same : α → α → Bool} {as : List α} (h : ∀ a ∈ as, same a a = true) :
    Instruction.agree same as as = true := by
  induction as with
  | nil => rfl
  | cons a as ih =>
    rw [Instruction.agree, h a List.mem_cons_self,
      ih fun b hb => h b (List.mem_cons_of_mem a hb)]
    rfl

theorem same_self {i : Instruction} (h : ∀ v ∈ i.values, v.Legible) : i.same i = true := by
  obtain ⟨-, -, -, -, hdoubles, hfloats, -, -⟩ := forall_mem_values.mp h
  have hdecimal : Instruction.agree Decimal.same i.decimals i.decimals = true :=
    agree_self fun d _ => beq_self_eq_true _
  have hdouble : Instruction.agree Double.same i.doubles i.doubles = true :=
    agree_self fun x hx => Double.same_self (hdoubles x hx)
  have hfloat : Instruction.agree Single.same i.floats i.floats = true :=
    agree_self fun x hx => Single.same_self (hfloats x hx)
  simp [Instruction.same, hdecimal, hdouble, hfloat]

theorem eq_of_same {i j : Instruction} (h : j.same i = true) :
    j.command = i.command ∧ j.chars = i.chars ∧ j.strings = i.strings := by
  simp only [Instruction.same, Bool.and_eq_true, beq_iff_eq] at h
  obtain ⟨⟨⟨⟨⟨⟨⟨⟨hcommand, -⟩, hchars⟩, hstrings⟩, -⟩, -⟩, -⟩, -⟩, -⟩ := h
  exact ⟨hcommand, hchars, hstrings⟩

theorem survives_of_same {i j : Instruction} (h : readLine (writeLine i) = .ok (some j))
    (hsame : j.same i = true) : Survives i := by
  -- What was read can be written, and its name, characters and strings are those of `i`. Only a
  -- number of `i` may still be one that its line cannot hold.
  obtain ⟨hcommand, hchars, hstrings⟩ := eq_of_same hsame
  have hj := writable_of_readLine h
  have hname : ∀ name, i.command = .custom name →
      IsName name.toList ∧ Text.lower name = name := by
    rw [← hcommand]
    exact hj.name
  have hclean : ∀ v ∈ i.values, ∀ c ∈ v.chars, isIgnored c = false := by
    obtain ⟨-, hjchars, hjstrings, -⟩ := forall_mem_values.mp hj.clean
    rw [hchars] at hjchars
    rw [hstrings] at hjstrings
    exact forall_mem_values.mpr
      ⟨nofun, hjchars, hjstrings, nofun, nofun, nofun, nofun, nofun⟩
  rw [readLine_writeLine hname hclean] at h
  obtain rfl := Option.some.inj (Except.ok.inj h)
  have hlegible : ∀ v ∈ i.values, v.Legible := by
    -- Such a number would have come back as a string more.
    apply @legible_of_length_strings (Command.ofName (Text.lowerFirst i.command.name))
    apply Nat.le_of_eq
    rw [hstrings, Instruction.ofValues_values]
  have hwritable : Writable i := ⟨hname, hlegible, hclean⟩
  rw [Instruction.command_ofValues, ← command_reread] at hcommand
  exact survives_iff.mpr ⟨hwritable, (command_reread_iff hwritable).mp hcommand⟩

theorem readLine_writeLine_of_survives {i : Instruction} (h : Survives i) :
    readLine (writeLine i) = .ok (some i) := by
  obtain ⟨hwritable, hcatalog⟩ := survives_iff.mp h
  rw [readLine_writeLine_of_writable hwritable,
    reread_eq_self ((command_reread_iff hwritable).mpr hcatalog)]

/-- The instructions that come back from their lines, be it unchanged or with equal numbers. -/
theorem readLine_writeLine_iff (i : Instruction) :
    (readLine (writeLine i) = .ok (some i) ↔ Survives i) ∧
      ((∃ j, readLine (writeLine i) = .ok (some j) ∧ j.same i = true) ↔ Survives i) := by
  refine ⟨⟨?_, readLine_writeLine_of_survives⟩, ?_, ?_⟩
  · intro h
    exact survives_of_same h (same_self (writable_of_readLine h).legible)
  · rintro ⟨j, h, hsame⟩
    exact survives_of_same h hsame
  · intro h
    exact ⟨i, readLine_writeLine_of_survives h, same_self (survives_iff.mp h).1.legible⟩

end Cutscene.Source
