import Cutscene.Proofs.Text.Utf8
import Mathlib.Algebra.Group.Nat.Defs

namespace Cutscene.Utf8

variable {as bs : List UInt8} {c d : Char} {cs ds : List Char} {m n lead count : Nat}

def Below (as bs : List UInt8) : Prop :=
  ∃ same a b as' bs', as = same ++ a :: as' ∧ bs = same ++ b :: bs' ∧ a < b

theorem below_of_head {a b : UInt8} (h : a < b) (as bs : List UInt8) : Below (a :: as) (b :: bs) :=
  ⟨[], a, b, as, bs, rfl, rfl, h⟩

theorem Below.append (h : Below as bs) (rest rest' : List UInt8) :
    Below (as ++ rest) (bs ++ rest') := by
  obtain ⟨same, a, b, as', bs', rfl, rfl, hab⟩ := h
  exact ⟨same, a, b, as' ++ rest, bs' ++ rest', List.append_assoc .., List.append_assoc .., hab⟩

theorem Below.append_left (h : Below as bs) (same : List UInt8) : Below (same ++ as) (same ++ bs) := by
  obtain ⟨same', a, b, as', bs', rfl, rfl, hab⟩ := h
  exact ⟨same ++ same', a, b, as', bs', (List.append_assoc ..).symm, (List.append_assoc ..).symm, hab⟩

theorem Below.lt (h : Below as bs) : as < bs := by
  obtain ⟨same, a, b, as', bs', rfl, rfl, hab⟩ := h
  exact List.append_left_lt (List.Lex.rel hab)

theorem ofNat_lt_ofNat (h : m < n) (hn : n < 0x100) : UInt8.ofNat m < UInt8.ofNat n := by
  rwa [UInt8.lt_iff_toNat_lt, toNat_byte (Nat.lt_trans h hn), toNat_byte hn]

theorem following_lt_following (h : m % 0x40 < n % 0x40) : following m < following n := by
  rw [UInt8.lt_iff_toNat_lt, toNat_following, toNat_following]
  omega

/-- A first byte that holds the upper bits of a number over `lead`, and `count` more with six bits
each. -/
def spell (lead : Nat) : Nat → Nat → List UInt8
  | 0, n => [UInt8.ofNat (lead + n)]
  | count + 1, n => spell lead count (n / 0x40) ++ [following n]

theorem exists_spell_eq_cons (lead count n : Nat) :
    ∃ bs, spell lead count n = UInt8.ofNat (lead + n / 0x40 ^ count) :: bs := by
  induction count generalizing n with
  | zero => exact ⟨[], by rw [spell, Nat.pow_zero, Nat.div_one]⟩
  | succ count ih =>
      obtain ⟨bs, hbs⟩ := ih (n / 0x40)
      refine ⟨bs ++ [following n], ?_⟩
      rw [spell, hbs, Nat.div_div_eq_div_mul, Nat.pow_succ', List.cons_append]

theorem below_spell (h : m < n) (hn : lead + n / 0x40 ^ count < 0x100) :
    Below (spell lead count m) (spell lead count n) := by
  induction count generalizing m n with
  | zero =>
      rw [Nat.pow_zero, Nat.div_one] at hn
      exact below_of_head (ofNat_lt_ofNat (by omega) hn) [] []
  | succ count ih =>
      rw [Nat.pow_succ', ← Nat.div_div_eq_div_mul] at hn
      rw [spell, spell]
      by_cases hupper : m / 0x40 < n / 0x40
      · exact (ih hupper hn).append _ _
      · -- The upper bits agree, so the last byte decides.
        rw [show m / 0x40 = n / 0x40 by omega]
        exact (below_of_head (following_lt_following (by omega)) [] []).append_left _

/-- What the first byte of a character is added to, and how many bytes follow it. -/
inductive Shape : Nat → Nat → Nat → Prop
  | one {n : Nat} (h : n < 0x80) : Shape n 0 0
  | two {n : Nat} (h : 0x80 ≤ n) (h' : n < 0x800) : Shape n 0xC0 1
  | three {n : Nat} (h : 0x800 ≤ n) (h' : n < 0x10000) : Shape n 0xE0 2
  | four {n : Nat} (h : 0x10000 ≤ n) (h' : n < 0x110000) : Shape n 0xF0 3

theorem exists_shape (c : Char) :
    ∃ lead count, Shape c.toNat lead count ∧ encodeChar c = spell lead count c.toNat := by
  have hvalid : c.toNat < 0xD800 ∨ 0xDFFF < c.toNat ∧ c.toNat < 0x110000 := c.valid
  simp only [encodeChar]
  split
  · rename_i h1
    exact ⟨0, 0, .one h1, by simp [spell]⟩
  split
  · rename_i h1 h2
    exact ⟨0xC0, 1, .two (by omega) h2, by simp [spell]⟩
  split
  · rename_i h2 h3
    exact ⟨0xE0, 2, .three (by omega) h3, by simp [spell, Nat.div_div_eq_div_mul]⟩
  · exact ⟨0xF0, 3, .four (by omega) (by omega), by simp [spell, Nat.div_div_eq_div_mul]⟩

theorem Shape.first_lt (h : Shape n lead count) : lead + n / 0x40 ^ count < 0x100 := by
  cases h <;> omega

theorem Shape.first_lt_or_eq {lead' count' : Nat} (hm : Shape m lead count)
    (hn : Shape n lead' count') (h : m < n) :
    lead + m / 0x40 ^ count < lead' + n / 0x40 ^ count' ∨ lead = lead' ∧ count = count' := by
  cases hm <;> cases hn <;> omega

theorem below_encodeChar (h : c < d) : Below (encodeChar c) (encodeChar d) := by
  have hlt : c.toNat < d.toNat := h
  obtain ⟨lead, count, hc, hspell⟩ := exists_shape c
  obtain ⟨lead', count', hd, hspell'⟩ := exists_shape d
  rw [hspell, hspell']
  obtain hfirst | ⟨rfl, rfl⟩ := hc.first_lt_or_eq hd hlt
  · obtain ⟨as, has⟩ := exists_spell_eq_cons lead count c.toNat
    obtain ⟨bs, hbs⟩ := exists_spell_eq_cons lead' count' d.toNat
    rw [has, hbs]
    exact below_of_head (ofNat_lt_ofNat hfirst hd.first_lt) as bs
  · exact below_spell hlt hd.first_lt

/-- A text that comes before another one does so byte by byte. -/
theorem encode_lt_encode (h : cs < ds) : encode cs < encode ds := by
  induction (h : List.Lex (· < ·) cs ds) with
  | @nil d ds =>
      rw [encode, encode, List.flatMap_nil, List.flatMap_cons]
      obtain ⟨b, bs, hd⟩ := List.exists_cons_of_length_pos (length_encodeChar_pos d)
      rw [hd]
      exact List.nil_lt_cons ..
  | rel hcd =>
      rw [encode, encode, List.flatMap_cons, List.flatMap_cons]
      exact ((below_encodeChar hcd).append _ _).lt
  | cons _ ih =>
      rw [encode, encode, List.flatMap_cons, List.flatMap_cons]
      exact List.append_left_lt ih

end Cutscene.Utf8
