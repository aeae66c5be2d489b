import Mathlib
import Cutscene.Proofs.Number.Shortest

namespace Cutscene

namespace Number.Format

variable {f : Format} {bits : Nat}

theorem infinity_le_signBit (f : Format) : f.infinity ≤ f.signBit :=
  Nat.mul_le_mul_right f.binade (Nat.sub_le _ _)

theorem quantity_eq_finite_iff (f : Format) (bits : Nat) :
    (∃ units, f.quantity bits = .finite false units) ↔ bits < f.infinity := by
  have hle := f.infinity_le_signBit
  constructor
  · rintro ⟨units, hquantity⟩
    rw [quantity] at hquantity
    split at hquantity
    · rename_i hfinite
      have hsign : f.negative bits = false := (Quantity.finite.inj hquantity).1
      have hlt : bits < f.signBit := Nat.not_le.mp (of_decide_eq_false hsign)
      rwa [magnitude, Nat.mod_eq_of_lt hlt] at hfinite
    · split at hquantity <;> cases hquantity
  · intro hlt
    have hmagnitude : f.magnitude bits = bits := Nat.mod_eq_of_lt (Nat.lt_of_lt_of_le hlt hle)
    have hsign : f.negative bits = false := decide_eq_false (Nat.not_le.mpr (by omega))
    refine ⟨f.units bits, ?_⟩
    rw [quantity, hmagnitude, if_pos hlt, hsign]

theorem text_of_lt_infinity (h : bits < f.infinity) :
    f.text bits = (f.shortest .up bits).plain := by
  obtain ⟨units, hquantity⟩ := (quantity_eq_finite_iff f bits).mpr h
  have hsign : ¬ f.negative bits = true := by
    have hle := f.infinity_le_signBit
    simp only [negative, decide_eq_true_eq]
    omega
  have hmagnitude : f.magnitude bits = bits :=
    Nat.mod_eq_of_lt (Nat.lt_of_lt_of_le h f.infinity_le_signBit)
  rw [text, hquantity]
  simp only [if_neg hsign, hmagnitude]

theorem readFinite_text (hprecision : 0 < f.precision) (h : bits < f.infinity) :
    f.readFinite (f.text bits) = some bits := by
  rw [text_of_lt_infinity h, readFinite_plain hprecision h]

theorem text_of_infinity_le (h : f.infinity ≤ bits) :
    ∃ c cs, f.text bits = c :: cs ∧ c ∈ ['-', 'N', 'i'] := by
  rw [text]
  cases hquantity : f.quantity bits with
  | nan => exact ⟨_, _, rfl, by decide⟩
  | infinite negative =>
    simp only
    split
    · exact ⟨_, _, rfl, by decide⟩
    · exact ⟨_, _, rfl, by decide⟩
  | finite negative units =>
    have hsign : f.negative bits = true := by
      cases negative with
      | false => exact absurd ((quantity_eq_finite_iff f bits).mp ⟨units, hquantity⟩) (by omega)
      | true =>
        rw [quantity] at hquantity
        split at hquantity
        · exact (Quantity.finite.inj hquantity).1
        · split at hquantity <;> cases hquantity
    simp only [if_pos hsign]
    exact ⟨_, _, rfl, by decide⟩

theorem mem_text {c : Char} (h : c ∈ f.text bits) :
    c.isDigit = true ∨ c ∈ ['.', '-', 'N', 'a', 'i', 'n', 'f'] := by
  have hsigned {cs : List Char}
      (hcs : ∀ c ∈ cs, c.isDigit = true ∨ c ∈ ['.', '-', 'N', 'a', 'i', 'n', 'f'])
      (h : c ∈ if f.negative bits then '-' :: cs else cs) :
      c.isDigit = true ∨ c ∈ ['.', '-', 'N', 'a', 'i', 'n', 'f'] := by
    split at h
    · rcases List.mem_cons.mp h with rfl | h
      · exact .inr (by decide)
      · exact hcs c h
    · exact hcs c h
  rw [text] at h
  cases hquantity : f.quantity bits with
  | nan =>
    rw [hquantity] at h
    simp only [List.mem_cons, List.not_mem_nil, or_false] at h
    rcases h with rfl | rfl | rfl <;> exact .inr (by decide)
  | infinite negative =>
    rw [hquantity] at h
    refine hsigned ?_ h
    intro c hc
    simp only [List.mem_cons, List.not_mem_nil, or_false] at hc
    rcases hc with rfl | rfl | rfl <;> exact .inr (by decide)
  | finite negative units =>
    rw [hquantity] at h
    refine hsigned ?_ h
    intro c hc
    rcases mem_fixed hc with hdigit | rfl
    · exact .inl hdigit
    · exact .inr (by decide)

theorem lt_infinity_of_readFinite {cs : List Char} (h : f.readFinite cs = some bits) :
    bits < f.infinity := of_decide_eq_true (Option.filter_eq_some_iff.mp h).2

end Number.Format

section Equality

open Float.Model UnpackedFloat

variable {spec : Format} {b : BitVec spec.numBits}

theorem unpackExponent_ne (h : b.toNat <
    (Nat.pow 2 spec.exponentBits - 1) * Nat.pow 2 spec.mantissaBitsWithoutImplicit) :
    unpackExponent b ≠ -1#_ := by
  intro hexponent
  have htoNat := congrArg BitVec.toNat hexponent
  rw [unpackExponent, BitVec.toNat_cast, BitVec.extractLsb_toNat, Nat.shiftRight_eq_div_pow,
    BitVec.neg_one_eq_allOnes, BitVec.toNat_allOnes] at htoNat
  have hdiv : b.toNat / 2 ^ spec.mantissaBitsWithoutImplicit < 2 ^ spec.exponentBits - 1 :=
    Nat.div_lt_of_lt_mul (by rwa [Nat.mul_comm])
  have hmod := Nat.mod_le (b.toNat / 2 ^ spec.mantissaBitsWithoutImplicit)
    (2 ^ (spec.mantissaBitsWithoutImplicit + spec.exponentBits - 1 -
      spec.mantissaBitsWithoutImplicit + 1))
  omega

theorem pack_unpack_ne_packedNaN (hspec : 2 ≤ spec.exponentBits) (h : b.toNat <
    (Nat.pow 2 spec.exponentBits - 1) * Nat.pow 2 spec.mantissaBitsWithoutImplicit) :
    pack spec (unpack spec b) ≠ packedNaN spec := by
  have hnumber : ¬ isNaNBits b = true := by
    intro hnan
    exact unpackExponent_ne h (of_decide_eq_true hnan).1
  intro hpacked
  rw [pack_unpack b hspec, if_neg hnumber] at hpacked
  rw [hpacked] at hnumber
  exact hnumber isNaNBits_packedNaN

end Equality

namespace Double

open Number

theorem read_text {x : Double} (h : x.bits.toNat < Format.double.infinity) :
    read x.text = some x := by
  rw [read, text, Format.readFinite_text (by decide) h, Option.map_some, UInt64.ofNat_toNat]

theorem bits_lt_of_read {cs : List Char} {x : Double} (h : read cs = some x) :
    x.bits.toNat < Format.double.infinity := by
  obtain ⟨bits, hread, rfl⟩ := Option.map_eq_some_iff.mp h
  have hlt := Format.lt_infinity_of_readFinite hread
  have hinfinity : Format.double.infinity ≤ UInt64.size := by decide
  change (UInt64.ofNat bits).toNat < _
  rw [UInt64.toNat_ofNat_of_lt' (Nat.lt_of_lt_of_le hlt hinfinity)]
  exact hlt

theorem same_self {x : Double} (h : x.bits.toNat < Format.double.infinity) :
    x.same x = true := by
  apply Float.beq_self_iff.mpr
  intro hnan
  have hpacked := congrArg (fun y : Float => y.toBits.toBitVec) hnan
  exact @pack_unpack_ne_packedNaN .binary64 x.bits.toBitVec (by decide) h hpacked

end Double

namespace Single

open Number

theorem read_text {x : Single} (h : x.bits.toNat < Format.single.infinity) :
    read x.text = some x := by
  rw [read, text, Format.readFinite_text (by decide) h, Option.map_some, UInt32.ofNat_toNat]

theorem bits_lt_of_read {cs : List Char} {x : Single} (h : read cs = some x) :
    x.bits.toNat < Format.single.infinity := by
  obtain ⟨bits, hread, rfl⟩ := Option.map_eq_some_iff.mp h
  have hlt := Format.lt_infinity_of_readFinite hread
  have hinfinity : Format.single.infinity ≤ UInt32.size := by decide
  change (UInt32.ofNat bits).toNat < _
  rw [UInt32.toNat_ofNat_of_lt' (Nat.lt_of_lt_of_le hlt hinfinity)]
  exact hlt

theorem same_self {x : Single} (h : x.bits.toNat < Format.single.infinity) :
    x.same x = true := by
  apply Float32.beq_self_iff.mpr
  intro hnan
  have hpacked := congrArg (fun y : Float32 => y.toBits.toBitVec) hnan
  exact @pack_unpack_ne_packedNaN .binary32 x.bits.toBitVec (by decide) h hpacked

end Single

end Cutscene
