import Cutscene.Proofs.Record.Field
import Cutscene.Record.Codec

namespace Cutscene

theorem or_and_eq_zero (a b c : UInt8) : (a ||| b) &&& c = 0 ↔ a &&& c = 0 ∧ b &&& c = 0 := by
  have h : (a ||| b) &&& c = (a &&& c) ||| (b &&& c) := by
    apply UInt8.toNat_inj.mp
    simp only [UInt8.toNat_and, UInt8.toNat_or]
    exact Nat.and_or_distrib_right _ _ _
  rw [h, UInt8.or_eq_zero_iff]

theorem Kind.bit_and_bit_eq_zero (k kind : Kind) : k.bit &&& kind.bit = 0 ↔ k ≠ kind := by
  cases k <;> cases kind <;> decide

theorem Kind.mem_all (kind : Kind) : kind ∈ Kind.all := by
  cases kind <;> decide

theorem Kind.mask_and_bit_eq_zero (kinds : List Kind) (mask : UInt8) (kind : Kind) :
    kinds.foldl (fun m k => m ||| k.bit) mask &&& kind.bit = 0 ↔
      mask &&& kind.bit = 0 ∧ kind ∉ kinds := by
  induction kinds generalizing mask with
  | nil => simp
  | cons k kinds ih =>
      rw [List.foldl_cons, ih, or_and_eq_zero, Kind.bit_and_bit_eq_zero, List.mem_cons, not_or,
        and_assoc, ne_comm]

theorem Instruction.presence_and_bit_eq_zero (i : Instruction) (kind : Kind) :
    i.presence &&& kind.bit = 0 ↔ i.count kind = 0 := by
  rw [Instruction.presence, Kind.mask_and_bit_eq_zero, List.mem_filter]
  simp [Kind.mem_all]

theorem Opcode.ordinal_ne_zero (opcode : Opcode) : opcode.ordinal ≠ 0 := by
  cases opcode <;> decide

namespace Record

theorem Spells.readList {α : Type} {mask : UInt8} {kind : Kind} {read : Reader α}
    {write : α → List UInt8} {values : List α}
    (hmask : mask &&& kind.bit = 0 ↔ values.length = 0) (hlength : values.length ≤ 255)
    (h : ∀ a ∈ values, Spells read (write a) a) :
    Spells (readList mask kind read) (writeList write values) values := by
  by_cases hnil : values = []
  · rw [Record.readList, writeList, if_pos hnil, if_pos (hmask.mpr (by rw [hnil]; rfl)), hnil]
    exact Spells.pure []
  · have hne : ¬ mask &&& kind.bit = 0 :=
      fun hm => hnil (List.eq_nil_of_length_eq_zero (hmask.mp hm))
    have hcount : (UInt8.ofNat values.length).toNat = values.length :=
      Utf8.toNat_byte (Nat.lt_succ_of_le hlength)
    rw [Record.readList, writeList, if_neg hnil, if_neg hne]
    apply Spells.readByte_bind
    rw [hcount]
    exact Spells.readMany write values h

def texts (i : Instruction) : List String :=
  match i.command with
  | .builtin _ => i.strings
  | .custom name => name :: i.strings

def TextsFit (i : Instruction) : Prop :=
  ∀ s ∈ texts i, (Utf8.encode s.toList).length < 0x100000000

def ListsFit (i : Instruction) : Prop := ∀ kind, i.count kind ≤ 255

theorem TextsFit.name {i : Instruction} (h : TextsFit i) (name : String)
    (hi : i.command = .custom name) : (Utf8.encode name.toList).length < 0x100000000 := by
  apply h name
  rw [texts, hi]
  exact List.mem_cons_self

theorem TextsFit.strings {i : Instruction} (h : TextsFit i) (s : String) (hs : s ∈ i.strings) :
    (Utf8.encode s.toList).length < 0x100000000 := by
  apply h s
  rw [texts]
  cases i.command with
  | builtin opcode => exact hs
  | custom name => exact List.mem_cons_of_mem name hs

theorem Spells.readCommand {command : Command}
    (h : ∀ name, command = .custom name → (Utf8.encode name.toList).length < 0x100000000) :
    Spells readCommand (writeCommand command) command := by
  cases command with
  | builtin opcode =>
      apply Spells.readByte_bind
      rw [if_neg (Opcode.ordinal_ne_zero opcode), Opcode.ofOrdinal?_ordinal]
      exact Spells.pure _
  | custom name =>
      apply Spells.readByte_bind
      rw [if_pos rfl]
      exact (Spells.readString _ (h name rfl)).map Command.custom

/-- The bytes of a record and nothing else decide where it stops. -/
theorem Spells.readInstruction {i : Instruction} (htexts : TextsFit i) (hlists : ListsFit i) :
    Spells readInstruction (writeInstruction i) i := by
  have hmask (kind : Kind) := Instruction.presence_and_bit_eq_zero i kind
  rw [writeInstruction]
  simp only [List.append_assoc]
  refine (Spells.readCommand htexts.name).bind (Spells.readByte_bind ?_)
  apply (Spells.readList (hmask .boolean) (hlists .boolean) fun v _ => Spells.readBool v).bind
  apply (Spells.readList (hmask .char) (hlists .char) fun v _ => Spells.readChar v).bind
  refine (Spells.readList (hmask .string) (hlists .string) fun s hs =>
    Spells.readString _ (htexts.strings s hs)).bind ?_
  refine (Spells.readList (hmask .decimal) (hlists .decimal) fun v _ =>
    Spells.readDecimal v).bind ?_
  apply (Spells.readList (hmask .double) (hlists .double) fun v _ => Spells.readDouble v).bind
  apply (Spells.readList (hmask .float) (hlists .float) fun v _ => Spells.readSingle v).bind
  apply (Spells.readList (hmask .int) (hlists .int) fun v _ => Spells.readInt v).bind
  exact (Spells.readList (hmask .uint) (hlists .uint) fun v _ => Spells.readUInt v).bind_nil
    (Spells.pure i)

def IsFirstLong (i : Instruction) (kind : Kind) : Prop :=
  255 < i.count kind ∧
    ∃ before after, Kind.all = before ++ kind :: after ∧ ∀ k ∈ before, i.count k ≤ 255

theorem encode_of_listsFit {i : Instruction} (h : ListsFit i) :
    encode i = .ok (writeInstruction i) := by
  have hnone : (Kind.all.find? fun kind => 255 < i.count kind) = none := by
    rw [List.find?_eq_none]
    intro kind _
    simpa using h kind
  rw [encode, hnone]

theorem encode_of_isFirstLong {i : Instruction} {kind : Kind} (h : IsFirstLong i kind) :
    encode i = .error (.tooManyParameters kind (i.count kind)) := by
  obtain ⟨hkind, before, after, hall, hbefore⟩ := h
  have hsome : (Kind.all.find? fun kind => 255 < i.count kind) = some kind := by
    rw [List.find?_eq_some_iff_append]
    refine ⟨by simpa using hkind, before, after, hall, ?_⟩
    intro k hk
    simpa using hbefore k hk
  rw [encode, hsome]

theorem listsFit_or_exists_isFirstLong (i : Instruction) :
    ListsFit i ∨ ∃ kind, IsFirstLong i kind := by
  cases hfind : Kind.all.find? fun kind => 255 < i.count kind with
  | none =>
      rw [List.find?_eq_none] at hfind
      refine Or.inl fun kind => ?_
      simpa using hfind kind (Kind.mem_all kind)
  | some kind =>
      obtain ⟨hkind, before, after, hall, hbefore⟩ := List.find?_eq_some_iff_append.mp hfind
      refine Or.inr ⟨kind, by simpa using hkind, before, after, hall, ?_⟩
      intro k hk
      simpa using hbefore k hk

end Record

end Cutscene
