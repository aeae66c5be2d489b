import Cutscene.Proofs.Record.Codec
import Cutscene.Proofs.Record.Layout

namespace Cutscene

theorem Kind.mask_filter (mask : UInt8) :
    (Kind.all.filter fun kind => mask &&& kind.bit ≠ 0).foldl (fun m kind => m ||| kind.bit) 0 =
      mask := by
  have h : ∀ n : Fin 256, (Kind.all.filter fun kind => UInt8.ofNat n &&& kind.bit ≠ 0).foldl
      (fun m kind => m ||| kind.bit) 0 = UInt8.ofNat n := by
    decide +kernel
  have hmask := h ⟨mask.toNat, mask.toNat_lt⟩
  simp only [UInt8.ofNat_toNat] at hmask
  exact hmask

theorem Instruction.presence_eq {i : Instruction} {mask : UInt8}
    (h : ∀ kind : Kind, mask &&& kind.bit = 0 ↔ i.count kind = 0) : i.presence = mask := by
  have hfilter : (Kind.all.filter fun kind => 0 < i.count kind) =
      Kind.all.filter fun kind => mask &&& kind.bit ≠ 0 := by
    apply List.filter_congr
    intro kind _
    rw [decide_eq_decide, Nat.pos_iff_ne_zero, ne_eq, ne_eq, h kind]
  rw [Instruction.presence, hfilter, Kind.mask_filter]

theorem Opcode.ordinal_of_ofOrdinal? {n : UInt8} {opcode : Opcode}
    (h : Opcode.ofOrdinal? n = some opcode) : opcode.ordinal = n :=
  eq_of_beq (List.find?_some (p := fun o : Opcode => o.ordinal == n) h)

namespace Record

variable {α : Type}

section Lists

variable {read : Reader α} {mask : UInt8} {kind : Kind} {bs rest : List UInt8} {values : List α}

theorem readList_eq_ok (h : readList mask kind read bs = .ok (values, rest)) :
    (mask &&& kind.bit = 0 ∧ values = [] ∧ bs = rest) ∨
      (mask &&& kind.bit ≠ 0 ∧ ∃ count mid, readByte bs = .ok (count, mid) ∧
        readMany read count.toNat mid = .ok (values, rest)) := by
  rw [readList] at h
  split at h
  · rename_i hmask
    cases h
    exact .inl ⟨hmask, rfl, rfl⟩
  · rename_i hmask
    obtain ⟨count, mid, hcount, hmany⟩ := exists_of_bind_eq_ok h
    exact .inr ⟨hmask, count, mid, hcount, hmany⟩

theorem length_readList_le (h : readList mask kind read bs = .ok (values, rest)) :
    values.length ≤ 255 := by
  obtain ⟨-, rfl, -⟩ | ⟨-, count, mid, -, hmany⟩ := readList_eq_ok h
  · exact Nat.zero_le 255
  · rw [length_of_readMany_eq_ok hmany]
    exact Nat.le_of_lt_succ count.toNat_lt

theorem of_mem_readList {P : α → Prop} (hread : ∀ bs a rest, read bs = .ok (a, rest) → P a)
    (h : readList mask kind read bs = .ok (values, rest)) : ∀ a ∈ values, P a := by
  obtain ⟨-, rfl, -⟩ | ⟨-, count, mid, -, hmany⟩ := readList_eq_ok h
  · exact nofun
  · exact of_mem_readMany hread hmany

theorem announced_iff {layout : Reader (List Stretch)} {ss : List Stretch} {rest' : List UInt8}
    (h : readList mask kind read bs = .ok (values, rest))
    (hlayout : layoutList mask kind layout bs = .ok (ss, rest')) (hss : ∀ s ∈ ss, s.IsCanonical) :
    mask &&& kind.bit = 0 ↔ values.length = 0 := by
  obtain ⟨hmask, rfl, -⟩ | ⟨hmask, count, mid, hcount, hmany⟩ := readList_eq_ok h
  · exact ⟨fun _ => rfl, fun _ => hmask⟩
  · rw [layoutList, if_neg hmask, bind_of_ok hcount] at hlayout
    obtain ⟨stretches, mid', -, hlayout⟩ := exists_of_bind_eq_ok hlayout
    cases hlayout
    have hne : count ≠ 0 := hss (.count count) List.mem_cons_self
    rw [length_of_readMany_eq_ok hmany, ← UInt8.toNat_zero, UInt8.toNat_inj]
    exact ⟨fun hzero => absurd hzero hmask, fun hzero => absurd hzero hne⟩

end Lists

theorem readCommand_eq_ok {bs rest : List UInt8} {command : Command}
    (h : readCommand bs = .ok (command, rest)) :
    ∃ ordinal mid, readByte bs = .ok (ordinal, mid) ∧
      ((ordinal = 0 ∧ ∃ name, command = .custom name ∧
          readString "custom command name" mid = .ok (name, rest)) ∨
        (ordinal ≠ 0 ∧ ∃ opcode, command = .builtin opcode ∧
          Opcode.ofOrdinal? ordinal = some opcode ∧ mid = rest)) := by
  obtain ⟨ordinal, mid, hordinal, h⟩ := exists_of_bind_eq_ok h
  refine ⟨ordinal, mid, hordinal, ?_⟩
  split at h
  · rename_i hzero
    obtain ⟨name, mid', hname, h⟩ := exists_of_bind_eq_ok h
    cases h
    exact .inl ⟨hzero, name, rfl, hname⟩
  · rename_i hne
    cases hopcode : Opcode.ofOrdinal? ordinal with
    | none =>
        rw [hopcode] at h
        cases h
    | some opcode =>
        rw [hopcode] at h
        cases h
        exact .inr ⟨hne, opcode, rfl, rfl, rfl⟩

namespace LaysOut

variable {read : Reader α} {layout : Reader (List Stretch)} {write : α → List UInt8}

theorem readMany (h : LaysOut read layout write) {n : Nat} {bs rest : List UInt8} {as : List α}
    (hmany : readMany read n bs = .ok (as, rest)) :
    ∃ sss, Record.readMany layout n bs = .ok (sss, rest) ∧
      Respells sss.flatten bs rest (as.flatMap write) := by
  induction n generalizing bs as with
  | zero =>
      cases hmany
      exact ⟨[], rfl, .nil _⟩
  | succ n ih =>
      obtain ⟨a, mid, as', ha, has, rfl⟩ := readMany_succ_eq_ok hmany
      obtain ⟨ss, hss, hrespells⟩ := h bs a mid ha
      obtain ⟨sss, hsss, hrespells'⟩ := ih has
      refine ⟨ss :: sss, ?_, hrespells.append hrespells'⟩
      rw [Record.readMany, bind_of_ok hss, bind_of_ok hsss]
      rfl

theorem readList (h : LaysOut read layout write) (mask : UInt8) (kind : Kind) :
    LaysOut (readList mask kind read) (layoutList mask kind layout) (writeList write) := by
  intro bs values rest hlist
  obtain ⟨hmask, rfl, rfl⟩ | ⟨hmask, count, mid, hcount, hmany⟩ := readList_eq_ok hlist
  · rw [layoutList, if_pos hmask]
    exact ⟨[], rfl, .nil _⟩
  obtain ⟨sss, hsss, hrespells⟩ := h.readMany hmany
  refine ⟨.count count :: sss.flatten, ?_, ?_⟩
  · rw [layoutList, if_neg hmask, bind_of_ok hcount, bind_of_ok hsss]
    rfl
  have hlength : values.length = count.toNat := length_of_readMany_eq_ok hmany
  rw [readByte_eq_ok hcount, writeList]
  by_cases hnil : values = []
  · have hzero : count = 0 := by
      rw [hnil] at hlength
      exact UInt8.toNat_inj.mp hlength.symm
    have hempty : Respells [.count count] ([count] ++ mid) mid [] :=
      .singleton (Nat.zero_le 1)
        ⟨fun hnil => absurd hnil.symm (List.cons_ne_nil count []), fun hne => absurd hzero hne⟩
    rw [hnil] at hrespells ⊢
    exact hempty.append hrespells
  · have hne : count ≠ 0 := by
      intro hzero
      rw [hzero] at hlength
      exact hnil (List.eq_nil_of_length_eq_zero hlength)
    have hcounted : Respells [.count count] ([count] ++ mid) mid [count] :=
      .singleton (Nat.le_refl 1) ⟨fun _ => hne, fun _ => rfl⟩
    rw [if_neg hnil, hlength, UInt8.ofNat_toNat]
    exact hcounted.append hrespells

theorem readCommand : LaysOut readCommand layoutCommand writeCommand := by
  intro bs command rest h
  obtain ⟨ordinal, mid, hordinal, ⟨hzero, name, rfl, hname⟩ | ⟨hne, opcode, rfl, hopcode, rfl⟩⟩ :=
    readCommand_eq_ok h
  · obtain ⟨ss, hss, hrespells⟩ := readString _ mid name rest hname
    refine ⟨.plain [ordinal] :: ss, ?_, ?_⟩
    · rw [layoutCommand, bind_of_ok hordinal, if_pos hzero, bind_of_ok hss]
      rfl
    · rw [readByte_eq_ok hordinal]
      exact hrespells.cons fun _ => hzero.symm
  · refine ⟨[.plain [ordinal]], ?_, ?_⟩
    · rw [layoutCommand, bind_of_ok hordinal, if_neg hne]
      rfl
    · rw [readByte_eq_ok hordinal, writeCommand, Opcode.ordinal_of_ofOrdinal? hopcode]
      exact .plain [ordinal] mid

end LaysOut

theorem readInstruction_eq_ok {bs rest : List UInt8} {i : Instruction}
    (h : readInstruction bs = .ok (i, rest)) :
    ∃ mask b₀ b₁ b₂ b₃ b₄ b₅ b₆ b₇ b₈, readCommand bs = .ok (i.command, b₀) ∧
      readByte b₀ = .ok (mask, b₁) ∧
      readList mask .boolean readBool b₁ = .ok (i.booleans, b₂) ∧
      readList mask .char readChar b₂ = .ok (i.chars, b₃) ∧
      readList mask .string (readString "string parameter") b₃ = .ok (i.strings, b₄) ∧
      readList mask .decimal readDecimal b₄ = .ok (i.decimals, b₅) ∧
      readList mask .double readDouble b₅ = .ok (i.doubles, b₆) ∧
      readList mask .float readSingle b₆ = .ok (i.floats, b₇) ∧
      readList mask .int readInt b₇ = .ok (i.ints, b₈) ∧
      readList mask .uint readUInt b₈ = .ok (i.uints, rest) := by
  obtain ⟨command, b₀, hcommand, h⟩ := exists_of_bind_eq_ok h
  obtain ⟨mask, b₁, hmask, h⟩ := exists_of_bind_eq_ok h
  obtain ⟨booleans, b₂, hbooleans, h⟩ := exists_of_bind_eq_ok h
  obtain ⟨chars, b₃, hchars, h⟩ := exists_of_bind_eq_ok h
  obtain ⟨strings, b₄, hstrings, h⟩ := exists_of_bind_eq_ok h
  obtain ⟨decimals, b₅, hdecimals, h⟩ := exists_of_bind_eq_ok h
  obtain ⟨doubles, b₆, hdoubles, h⟩ := exists_of_bind_eq_ok h
  obtain ⟨floats, b₇, hfloats, h⟩ := exists_of_bind_eq_ok h
  obtain ⟨ints, b₈, hints, h⟩ := exists_of_bind_eq_ok h
  obtain ⟨uints, b₉, huints, h⟩ := exists_of_bind_eq_ok h
  cases h
  exact ⟨mask, b₀, b₁, b₂, b₃, b₄, b₅, b₆, b₇, b₈, hcommand, hmask, hbooleans, hchars, hstrings,
    hdecimals, hdoubles, hfloats, hints, huints⟩

theorem listsFit_of_read {bs rest : List UInt8} {i : Instruction}
    (h : readInstruction bs = .ok (i, rest)) : ListsFit i := by
  obtain ⟨_, _, _, _, _, _, _, _, _, _, -, -, hbooleans, hchars, hstrings, hdecimals, hdoubles,
    hfloats, hints, huints⟩ := readInstruction_eq_ok h
  intro kind
  cases kind with
  | boolean => exact length_readList_le hbooleans
  | char => exact length_readList_le hchars
  | string => exact length_readList_le hstrings
  | decimal => exact length_readList_le hdecimals
  | double => exact length_readList_le hdoubles
  | float => exact length_readList_le hfloats
  | int => exact length_readList_le hints
  | uint => exact length_readList_le huints

theorem length_of_readString {place s : String} {bs rest : List UInt8}
    (h : readString place bs = .ok (s, rest)) : (Utf8.encode s.toList).length < 0x100000000 := by
  obtain ⟨n, mid, hn, h⟩ := exists_of_bind_eq_ok h
  obtain ⟨text, mid', htext, h⟩ := exists_of_bind_eq_ok h
  obtain ⟨taken, -, hlt, -⟩ := readLength_eq_ok hn
  rw [← nameOfUtf8_eq_ok (liftM_eq_ok h).1, length_of_readBytes_eq_ok htext]
  exact hlt

theorem length_of_readCommand {name : String} {bs rest : List UInt8}
    (h : readCommand bs = .ok (.custom name, rest)) :
    (Utf8.encode name.toList).length < 0x100000000 := by
  obtain ⟨ordinal, mid, -, ⟨-, name', hcommand, hname⟩ | ⟨-, opcode, hcommand, -⟩⟩ :=
    readCommand_eq_ok h
  · cases hcommand
    exact length_of_readString hname
  · cases hcommand

theorem textsFit_of_read {bs rest : List UInt8} {i : Instruction}
    (h : readInstruction bs = .ok (i, rest)) : TextsFit i := by
  obtain ⟨_, _, _, _, _, _, _, _, _, _, hcommand, -, -, -, hstrings, -⟩ := readInstruction_eq_ok h
  have hfit := of_mem_readList (fun _ _ _ => length_of_readString) hstrings
  intro s hs
  rw [texts] at hs
  cases hi : i.command with
  | builtin opcode =>
      rw [hi] at hs
      exact hfit s hs
  | custom name =>
      rw [hi] at hs hcommand
      obtain rfl | hs := List.mem_cons.mp hs
      · exact length_of_readCommand hcommand
      · exact hfit s hs

theorem LaysOut.readInstruction : LaysOut readInstruction layout writeInstruction := by
  intro bs i rest h
  obtain ⟨mask, b₀, b₁, b₂, b₃, b₄, b₅, b₆, b₇, b₈, hcommand, hmask, hbooleans, hchars, hstrings,
    hdecimals, hdoubles, hfloats, hints, huints⟩ := readInstruction_eq_ok h
  obtain ⟨command, lcommand, rcommand⟩ := readCommand _ _ _ hcommand
  obtain ⟨booleans, lbooleans, rbooleans⟩ := readBool.readList _ _ _ _ _ hbooleans
  obtain ⟨chars, lchars, rchars⟩ := (plain .readChar).readList _ _ _ _ _ hchars
  obtain ⟨strings, lstrings, rstrings⟩ := (readString _).readList _ _ _ _ _ hstrings
  obtain ⟨decimals, ldecimals, rdecimals⟩ := readDecimal.readList _ _ _ _ _ hdecimals
  obtain ⟨doubles, ldoubles, rdoubles⟩ := (plain .readDouble).readList _ _ _ _ _ hdoubles
  obtain ⟨floats, lfloats, rfloats⟩ := (plain .readSingle).readList _ _ _ _ _ hfloats
  obtain ⟨ints, lints, rints⟩ := (plain .readInt).readList _ _ _ _ _ hints
  obtain ⟨uints, luints, ruints⟩ := (plain .readUInt).readList _ _ _ _ _ huints
  refine ⟨command ++ .plain [mask] :: (booleans ++ chars ++ strings ++ decimals ++ doubles ++
    floats ++ ints ++ uints), ?_, ?_⟩
  · rw [layout, bind_of_ok lcommand, bind_of_ok hmask, bind_of_ok lbooleans, bind_of_ok lchars,
      bind_of_ok lstrings, bind_of_ok ldecimals, bind_of_ok ldoubles, bind_of_ok lfloats,
      bind_of_ok lints, bind_of_ok luints]
    rfl
  have hlists := ((((((rbooleans.append rchars).append rstrings).append rdecimals).append
    rdoubles).append rfloats).append rints).append ruints
  rw [readByte_eq_ok hmask] at rcommand
  -- The mask is written from what the lists hold, so it is the one that was read only if no list
  -- was announced for nothing.
  refine rcommand.append (hlists.cons fun hss => Instruction.presence_eq fun kind => ?_)
  simp only [List.forall_mem_append] at hss
  obtain ⟨⟨⟨⟨⟨⟨⟨sbooleans, schars⟩, sstrings⟩, sdecimals⟩, sdoubles⟩, sfloats⟩, sints⟩, suints⟩ := hss
  cases kind with
  | boolean => exact announced_iff hbooleans lbooleans sbooleans
  | char => exact announced_iff hchars lchars schars
  | string => exact announced_iff hstrings lstrings sstrings
  | decimal => exact announced_iff hdecimals ldecimals sdecimals
  | double => exact announced_iff hdoubles ldoubles sdoubles
  | float => exact announced_iff hfloats lfloats sfloats
  | int => exact announced_iff hints lints sints
  | uint => exact announced_iff huints luints suints

/-- What has been read can be written again. It takes no more bytes than before, and the same ones if
and only if every truth value, count, length and decimal was spelled as writers spell it. -/
theorem readInstruction_canonical {bs rest : List UInt8} {i : Instruction}
    (h : readInstruction bs = .ok (i, rest)) :
    ∃ record stretches out, bs = record ++ rest ∧ layout bs = .ok (stretches, rest) ∧
      spelling stretches = record ∧ encode i = .ok out ∧ out.length ≤ record.length ∧
      readInstruction out = .ok (i, []) ∧ (out = record ↔ ∀ s ∈ stretches, s.IsCanonical) := by
  obtain ⟨stretches, hlayout, hrespells⟩ := LaysOut.readInstruction bs i rest h
  have hlists := listsFit_of_read h
  have hagain := (Spells.readInstruction (textsFit_of_read h) hlists).whole []
  rw [List.append_nil] at hagain
  exact ⟨spelling stretches, stretches, writeInstruction i, hrespells.split, hlayout, rfl,
    encode_of_listsFit hlists, hrespells.length_le, hagain, hrespells.eq_iff⟩

/-- An overlong prefix, a truth value of 2, a list with nothing in it, and a zero with a sign. -/
def looseRecord : List UInt8 :=
  [0, 0x81, 0x80, 0x00, 0x61, 0xB0, 1, 2, 0, 1] ++ List.replicate 12 0 ++ [1, 0, 0, 0x80]

def looseInstruction : Instruction :=
  { command := .custom "a", booleans := [true], decimals := [default] }

def looseStretches : List Stretch :=
  [.plain [0], .length 1 [0x81, 0x80, 0x00], .plain [0x61], .plain [0xB0], .count 1, .boolean 2,
    .count 0, .count 1, .decimal (List.replicate 12 0) [1, 0, 0, 0x80]]

theorem readInstruction_canonical_loose :
    readInstruction (looseRecord ++ [0xFF]) = .ok (looseInstruction, [0xFF]) ∧
      ∃ out, encode looseInstruction = .ok out ∧ out.length ≤ looseRecord.length ∧
        readInstruction out = .ok (looseInstruction, []) ∧ out ≠ looseRecord := by
  have hread : readInstruction (looseRecord ++ [0xFF]) = .ok (looseInstruction, [0xFF]) := rfl
  obtain ⟨record, stretches, out, hsplit, hlayout, -, hencode, hle, hagain, hiff⟩ :=
    readInstruction_canonical hread
  have hrecord : looseRecord = record := List.append_cancel_right hsplit
  have hloose : layout (looseRecord ++ [0xFF]) = .ok (looseStretches, [0xFF]) := rfl
  rw [hloose] at hlayout
  cases hlayout
  rw [← hrecord] at hle hiff
  have hnot : ¬ ∀ s ∈ looseStretches, s.IsCanonical := by decide
  exact ⟨hread, out, hencode, hle, hagain, fun heq => hnot (hiff.mp heq)⟩

end Record

end Cutscene
