import Cutscene.Proofs.Record.Spells
import Cutscene.Proofs.Text.Utf8
import Cutscene.Record.Length

namespace Cutscene.Record

theorem length_toBytes (width n : Nat) : (toBytes width n).length = width := by
  induction width generalizing n with
  | zero => rfl
  | succ width ih => simp [toBytes, ih]

theorem ofBytes_toBytes (width : Nat) {n : Nat} (h : n < Nat.pow 0x100 width) :
    ofBytes (toBytes width n) = n := by
  induction width generalizing n with
  | zero =>
      have hn : n = 0 := Nat.lt_one_iff.mp h
      rw [hn]
      rfl
  | succ width ih =>
      have hdiv : n / 0x100 < Nat.pow 0x100 width := Nat.div_lt_of_lt_mul (by
        rw [Nat.mul_comm]
        exact h)
      simp only [toBytes, ofBytes, ih hdiv, UInt8.toNat_ofNat']
      exact Nat.mod_add_div n 0x100

theorem Spells.readWord (width : Nat) {n : Nat} (h : n < Nat.pow 0x100 width) :
    Spells (readWord width) (toBytes width n) n := by
  have hbytes := Spells.readBytes (toBytes width n)
  rw [length_toBytes] at hbytes
  have hword := hbytes.map ofBytes
  rwa [ofBytes_toBytes width h] at hword

theorem Spells.readGroups (fuel : Nat) {n : Nat} (h : n < Nat.pow 0x80 fuel) (hfuel : 0 < fuel) :
    Spells (readGroups fuel) (writeGroups fuel n) n := by
  induction fuel generalizing n with
  | zero => exact absurd hfuel (Nat.lt_irrefl 0)
  | succ fuel ih =>
      by_cases hn : n < 0x80
      · have hb : (UInt8.ofNat n).toNat = n := Utf8.toNat_byte (by omega)
        have hlt : UInt8.ofNat n < 0x80 := UInt8.lt_iff_toNat_lt.mpr (by rw [hb]; exact hn)
        rw [writeGroups, if_pos hn]
        apply Spells.readByte_bind
        rw [if_pos hlt, hb]
        exact Spells.pure n
      · have hb : (UInt8.ofNat (n % 0x80 + 0x80)).toNat = n % 0x80 + 0x80 :=
          Utf8.toNat_byte (by omega)
        have hge : ¬ UInt8.ofNat (n % 0x80 + 0x80) < 0x80 := by
          rw [UInt8.lt_iff_toNat_lt, hb, Nat.not_lt]
          exact Nat.le_add_left _ _
        have hdiv : n / 0x80 < Nat.pow 0x80 fuel := Nat.div_lt_of_lt_mul (by
          rw [Nat.mul_comm]
          exact h)
        have hpos : 0 < fuel := by
          cases fuel with
          | zero => exact absurd h hn
          | succ fuel => exact Nat.succ_pos fuel
        rw [writeGroups, if_neg hn]
        apply Spells.readByte_bind
        rw [if_neg hge, hb]
        have hrest := (ih hdiv hpos).map fun rest => (n % 0x80 + 0x80) % 0x80 + 0x80 * rest
        have hsum : (n % 0x80 + 0x80) % 0x80 + 0x80 * (n / 0x80) = n := by omega
        rwa [hsum] at hrest

theorem Spells.readLength {n : Nat} (h : n < 0x100000000) :
    Spells readLength (writeLength n) n := by
  have hmod : n % 0x100000000 = n := Nat.mod_eq_of_lt h
  have hgroups : Spells (Record.readGroups 5) (writeGroups 5 n) n :=
    Spells.readGroups 5 (Nat.lt_trans h (by decide)) (by decide)
  have hlength := hgroups.map (· % 0x100000000)
  rw [writeLength, hmod]
  rwa [hmod] at hlength

end Cutscene.Record
