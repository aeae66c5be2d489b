import Cutscene.Proofs.Record.Reading
import Cutscene.Record.Codec

namespace Cutscene.Record

inductive Stretch where
  /-- Bytes that no others stand for: opcodes, masks, texts, characters and plain numbers. -/
  | plain (bs : List UInt8)
  | boolean (b : UInt8)
  /-- The count of a list that the mask announces. -/
  | count (b : UInt8)
  /-- The prefix of a text with so many bytes. -/
  | length (n : Nat) (bs : List UInt8)
  | decimal (magnitude flags : List UInt8)
  deriving DecidableEq, Repr

namespace Stretch

def bytes : Stretch → List UInt8
  | plain bs => bs
  | boolean b => [b]
  | count b => [b]
  | length _ bs => bs
  | decimal magnitude flags => magnitude ++ flags

/-- The word after the mantissa has a scale in its third byte, a sign in its top bit and no other
bits, and zero has no sign. -/
def IsPlainDecimal (magnitude flags : Nat) : Prop :=
  flags % 0x10000 = 0 ∧ flags / 0x1000000 % 0x80 = 0 ∧ (topBit ≤ flags → magnitude ≠ 0)

def IsCanonical : Stretch → Prop
  | plain _ => True
  | boolean b => b = 0 ∨ b = 1
  | count b => b ≠ 0
  | length n bs => bs = writeLength n
  | decimal magnitude flags => IsPlainDecimal (ofBytes magnitude) (ofBytes flags)

instance : DecidablePred IsCanonical
  | plain _ => inferInstanceAs (Decidable True)
  | boolean b => inferInstanceAs (Decidable (b = 0 ∨ b = 1))
  | count b => inferInstanceAs (Decidable (b ≠ 0))
  | length n bs => inferInstanceAs (Decidable (bs = writeLength n))
  | decimal magnitude flags =>
      inferInstanceAs (Decidable (ofBytes flags % 0x10000 = 0 ∧
        ofBytes flags / 0x1000000 % 0x80 = 0 ∧ (topBit ≤ ofBytes flags → ofBytes magnitude ≠ 0)))

end Stretch

def spelling (stretches : List Stretch) : List UInt8 := stretches.flatMap Stretch.bytes

variable {α : Type}

def spelled (read : Reader α) : Reader (α × List UInt8) := fun bs => do
  let (a, rest) ← read bs
  pure ((a, bs.take (bs.length - rest.length)), rest)

def layoutPlain (read : Reader α) : Reader (List Stretch) := do
  let (_, bs) ← spelled read
  pure [.plain bs]

def layoutBool : Reader (List Stretch) := do
  let b ← readByte
  pure [.boolean b]

def layoutString : Reader (List Stretch) := do
  let (n, bs) ← spelled readLength
  let text ← readBytes n
  pure [.length n bs, .plain text]

def layoutDecimal : Reader (List Stretch) := do
  let magnitude ← readBytes 12
  let flags ← readBytes 4
  pure [.decimal magnitude flags]

def layoutList (mask : UInt8) (kind : Kind) (layout : Reader (List Stretch)) :
    Reader (List Stretch) :=
  if mask &&& kind.bit = 0 then pure []
  else do
    let count ← readByte
    let values ← readMany layout count.toNat
    pure (.count count :: values.flatten)

def layoutCommand : Reader (List Stretch) := do
  let ordinal ← readByte
  if ordinal = 0 then do
    let name ← layoutString
    pure (.plain [ordinal] :: name)
  else pure [.plain [ordinal]]

def layout : Reader (List Stretch) := do
  let command ← layoutCommand
  let mask ← readByte
  let booleans ← layoutList mask .boolean layoutBool
  let chars ← layoutList mask .char (layoutPlain readChar)
  let strings ← layoutList mask .string layoutString
  let decimals ← layoutList mask .decimal layoutDecimal
  let doubles ← layoutList mask .double (layoutPlain readDouble)
  let floats ← layoutList mask .float (layoutPlain readSingle)
  let ints ← layoutList mask .int (layoutPlain readInt)
  let uints ← layoutList mask .uint (layoutPlain readUInt)
  pure (command ++ .plain [mask] :: (booleans ++ chars ++ strings ++ decimals ++ doubles ++ floats ++
    ints ++ uints))

theorem spelled_of_eq_ok {read : Reader α} {bs taken rest : List UInt8} {a : α}
    (h : read bs = .ok (a, rest)) (hbs : bs = taken ++ rest) :
    spelled read bs = .ok ((a, taken), rest) := by
  have htaken : bs.take (bs.length - rest.length) = taken := by
    rw [hbs, List.length_append, Nat.add_sub_cancel, List.take_left]
  rw [spelled, h]
  change Except.ok ((a, bs.take (bs.length - rest.length)), rest) = _
  rw [htaken]

/-- The bytes up to `rest` are cut into stretches, and `out` is put in their place: it is no longer,
and the same if and only if every stretch is canonical. -/
structure Respells (ss : List Stretch) (bs rest out : List UInt8) : Prop where
  split : bs = spelling ss ++ rest
  length_le : out.length ≤ (spelling ss).length
  eq_iff : out = spelling ss ↔ ∀ s ∈ ss, s.IsCanonical

namespace Respells

variable {ss ts : List Stretch} {bs mid rest out out' : List UInt8}

theorem nil (bs : List UInt8) : Respells [] bs bs [] where
  split := rfl
  length_le := Nat.le_refl 0
  eq_iff := ⟨fun _ => nofun, fun _ => rfl⟩

theorem singleton {s : Stretch} (hlength : out.length ≤ s.bytes.length)
    (heq : out = s.bytes ↔ s.IsCanonical) : Respells [s] (s.bytes ++ rest) rest out := by
  have hspelling : spelling [s] = s.bytes := List.flatMap_singleton Stretch.bytes s
  refine ⟨?_, ?_, ?_⟩
  · rw [hspelling]
  · rw [hspelling]
    exact hlength
  · rw [hspelling, heq, List.forall_mem_singleton]

theorem plain (bs rest : List UInt8) : Respells [.plain bs] (bs ++ rest) rest bs :=
  singleton (s := .plain bs) (Nat.le_refl _) ⟨fun _ => trivial, fun _ => rfl⟩

/-- Neither part of what is put out is longer than what it stands for, so they can be compared one by
one. -/
theorem append (h : Respells ss bs mid out) (h' : Respells ts mid rest out') :
    Respells (ss ++ ts) bs rest (out ++ out') := by
  have hspelling : spelling (ss ++ ts) = spelling ss ++ spelling ts := List.flatMap_append
  have hlength := h.length_le
  have hlength' := h'.length_le
  refine ⟨?_, ?_, ?_⟩
  · rw [hspelling, List.append_assoc, ← h'.split]
    exact h.split
  · rw [hspelling, List.length_append, List.length_append]
    omega
  · rw [hspelling, List.forall_mem_append, ← h.eq_iff, ← h'.eq_iff]
    constructor
    · intro heq
      have hsum := congrArg List.length heq
      rw [List.length_append, List.length_append] at hsum
      exact List.append_inj heq (by omega)
    · rintro ⟨rfl, rfl⟩
      rfl

theorem cons {b b' : UInt8} (h : Respells ts bs rest out)
    (heq : (∀ s ∈ ts, s.IsCanonical) → b' = b) :
    Respells (.plain [b] :: ts) (b :: bs) rest (b' :: out) where
  split := by
    change b :: bs = b :: (spelling ts ++ rest)
    rw [← h.split]
  length_le := Nat.succ_le_succ h.length_le
  eq_iff := by
    change b' :: out = b :: spelling ts ↔ _
    rw [List.cons_eq_cons, h.eq_iff, List.forall_mem_cons]
    constructor
    · rintro ⟨-, hts⟩
      exact ⟨trivial, hts⟩
    · rintro ⟨-, hts⟩
      exact ⟨heq hts, hts⟩

end Respells

theorem parts_of_decimalOf {magnitude flags : Nat} {d : Decimal}
    (h : decimalOf magnitude flags = .ok d) :
    d.mantissa.natAbs = magnitude ∧ d.scale = flags / 0x10000 % 0x100 ∧
      (d.mantissa < 0 ↔ topBit ≤ flags ∧ magnitude ≠ 0) := by
  rw [decimalOf] at h
  split at h
  · cases h
    refine ⟨?_, rfl, ?_⟩
    · simp only
      split <;> omega
    · simp only
      split <;> omega
  · cases h

theorem flags_eq_iff {magnitude flags : Nat} {d : Decimal} (hflags : flags < 0x100000000)
    (h : decimalOf magnitude flags = .ok d) :
    (d.scale * 0x10000 + if d.mantissa < 0 then topBit else 0) = flags ↔
      Stretch.IsPlainDecimal magnitude flags := by
  obtain ⟨-, hscale, hsign⟩ := parts_of_decimalOf h
  simp only [hscale, hsign, Stretch.IsPlainDecimal, topBit]
  split <;> omega

theorem writeDecimal_eq_iff {m f : List UInt8} {d : Decimal} (hm : m.length = 12)
    (hf : f.length = 4) (h : decimalOf (ofBytes m) (ofBytes f) = .ok d) :
    writeDecimal d = m ++ f ↔ Stretch.IsPlainDecimal (ofBytes m) (ofBytes f) := by
  have hflags : ofBytes f < 0x100000000 := by
    have hlt := ofBytes_lt f
    rwa [hf] at hlt
  have hmagnitude : toBytes 12 (ofBytes m) = m := by
    have hword := toBytes_ofBytes m
    rwa [hm] at hword
  have hword : toBytes 4 (ofBytes f) = f := by
    have hword := toBytes_ofBytes f
    rwa [hf] at hword
  rw [← flags_eq_iff hflags h, writeDecimal, (parts_of_decimalOf h).1, hmagnitude,
    List.append_right_inj]
  constructor
  · intro heq
    rw [← ofBytes_toBytes 4 (flags_lt d), heq]
  · intro heq
    rw [heq, hword]

def LaysOut (read : Reader α) (layout : Reader (List Stretch)) (write : α → List UInt8) : Prop :=
  ∀ bs a rest, read bs = .ok (a, rest) →
    ∃ ss, layout bs = .ok (ss, rest) ∧ Respells ss bs rest (write a)

namespace LaysOut

theorem plain {read : Reader α} {write : α → List UInt8} (h : Inverts read write) :
    LaysOut read (layoutPlain read) write := by
  intro bs a rest ha
  have hbs := h bs a rest ha
  refine ⟨[.plain (write a)], ?_, ?_⟩
  · rw [layoutPlain, bind_of_ok (spelled_of_eq_ok ha hbs)]
    rfl
  · rw [hbs]
    exact .plain _ _

theorem readBool : LaysOut readBool layoutBool writeBool := by
  intro bs value rest h
  obtain ⟨b, mid, hb, h⟩ := exists_of_bind_eq_ok h
  cases h
  refine ⟨[.boolean b], ?_, ?_⟩
  · rw [layoutBool, bind_of_ok hb]
    rfl
  have hcanonical : writeBool (b != 0) = [b] ↔ b = 0 ∨ b = 1 := by
    rw [writeBool, List.cons_eq_cons, and_iff_left rfl]
    by_cases hzero : b = 0
    · rw [hzero]
      decide
    · rw [if_pos (bne_iff_ne.mpr hzero), or_iff_right hzero]
      exact eq_comm
  have hspelled : Respells [.boolean b] ([b] ++ rest) rest (writeBool (b != 0)) :=
    .singleton (Nat.le_refl 1) hcanonical
  rwa [readByte_eq_ok hb]

theorem readString (place : String) : LaysOut (readString place) layoutString writeString := by
  intro bs s rest h
  obtain ⟨n, mid, hn, h⟩ := exists_of_bind_eq_ok h
  obtain ⟨text, mid', htext, h⟩ := exists_of_bind_eq_ok h
  obtain ⟨hname, rfl⟩ := liftM_eq_ok h
  obtain ⟨taken, hbs, -, hle⟩ := readLength_eq_ok hn
  have hmid := Inverts.readBytes n mid text mid' htext
  refine ⟨[.length n taken, .plain text], ?_, ?_⟩
  · rw [layoutString, bind_of_ok (spelled_of_eq_ok hn hbs)]
    exact bind_of_ok htext
  have hlength : text.length = n := length_of_readBytes_eq_ok htext
  have hprefix : Respells [.length n taken] (taken ++ mid) mid (writeLength n) :=
    .singleton hle eq_comm
  rw [hbs, writeString, ← nameOfUtf8_eq_ok hname, hlength]
  apply hprefix.append
  rw [hmid]
  exact .plain text mid'

theorem readDecimal : LaysOut readDecimal layoutDecimal writeDecimal := by
  intro bs d rest h
  obtain ⟨magnitude, mid, hm, h⟩ := exists_of_bind_eq_ok h
  obtain ⟨m, mid₁, hmagnitude, hm⟩ := exists_of_bind_eq_ok hm
  cases hm
  obtain ⟨flags, mid', hf, h⟩ := exists_of_bind_eq_ok h
  obtain ⟨f, mid₂, hflags, hf⟩ := exists_of_bind_eq_ok hf
  cases hf
  obtain ⟨hd, rfl⟩ := liftM_eq_ok h
  refine ⟨[.decimal m f], ?_, ?_⟩
  · rw [layoutDecimal, bind_of_ok hmagnitude, bind_of_ok hflags]
    rfl
  have hbs : bs = m ++ f ++ mid' := by
    rw [Inverts.readBytes 12 _ _ _ hmagnitude, Inverts.readBytes 4 _ _ _ hflags, List.append_assoc]
  have hmlength : m.length = 12 := length_of_readBytes_eq_ok hmagnitude
  have hflength : f.length = 4 := length_of_readBytes_eq_ok hflags
  have hlength : (writeDecimal d).length = (m ++ f).length := by
    rw [writeDecimal, List.length_append, List.length_append, length_toBytes, length_toBytes,
      hmlength, hflength]
  rw [hbs]
  exact .singleton (s := .decimal m f) (Nat.le_of_eq hlength)
    (writeDecimal_eq_iff hmlength hflength hd)

end LaysOut

end Cutscene.Record
