import Cutscene.Text.Utf8

namespace Cutscene.Utf8

theorem toNat_byte {n : Nat} (h : n < 0x100) : (UInt8.ofNat n).toNat = n :=
  UInt8.toNat_ofNat_of_lt' h

theorem toNat_following (n : Nat) : (following n).toNat = 0x80 + n % 0x40 :=
  toNat_byte (by omega)

theorem tail_zero (value seen : Nat) (low high : UInt8) (bs : List UInt8) :
    tail value seen low high 0 bs = .ok (value, bs) := rfl

theorem tail_following {value seen n count : Nat} {low high : UInt8} (bs : List UInt8)
    (hlow : low.toNat ≤ 0x80 + n % 0x40) (hhigh : 0x80 + n % 0x40 ≤ high.toNat) :
    tail value seen low high (count + 1) (following n :: bs) =
      tail (value * 0x40 + n % 0x40) (seen + 1) 0x80 0xBF count bs := by
  have hbounds : low ≤ following n ∧ following n ≤ high := by
    rw [UInt8.le_iff_toNat_le, UInt8.le_iff_toNat_le, toNat_following]
    exact ⟨hlow, hhigh⟩
  have hvalue : (following n).toNat % 0x40 = n % 0x40 := by
    rw [toNat_following]
    omega
  rw [tail, if_pos hbounds, hvalue]

theorem tail_following' {value seen n count : Nat} (bs : List UInt8) :
    tail value seen 0x80 0xBF (count + 1) (following n :: bs) =
      tail (value * 0x40 + n % 0x40) (seen + 1) 0x80 0xBF count bs := by
  have h : (0x80 : UInt8).toNat = 0x80 ∧ (0xBF : UInt8).toNat = 0xBF := ⟨rfl, rfl⟩
  exact tail_following bs (by omega) (by omega)

theorem codePoint_one {b : UInt8} (bs : List UInt8) (h : b.toNat < 0x80) :
    codePoint (b :: bs) = .ok (b.toNat, bs) := by
  simp only [codePoint, UInt8.lt_iff_toNat_lt, UInt8.reduceToNat]
  rw [if_pos h]

theorem codePoint_two {b : UInt8} (bs : List UInt8) (h : 0xC2 ≤ b.toNat) (h' : b.toNat < 0xE0) :
    codePoint (b :: bs) = tail (b.toNat - 0xC0) 1 0x80 0xBF 1 bs := by
  simp only [codePoint, UInt8.lt_iff_toNat_lt, UInt8.reduceToNat]
  rw [if_neg (by omega), if_neg (by omega), if_pos h']

theorem codePoint_three {b : UInt8} (bs : List UInt8) (h : 0xE0 ≤ b.toNat) (h' : b.toNat < 0xF0) :
    codePoint (b :: bs) =
      tail (b.toNat - 0xE0) 1 (if b = 0xE0 then 0xA0 else 0x80) (if b = 0xED then 0x9F else 0xBF)
        2 bs := by
  simp only [codePoint, UInt8.lt_iff_toNat_lt, UInt8.reduceToNat]
  rw [if_neg (by omega), if_neg (by omega), if_neg (by omega), if_pos h']

theorem codePoint_four {b : UInt8} (bs : List UInt8) (h : 0xF0 ≤ b.toNat) (h' : b.toNat < 0xF5) :
    codePoint (b :: bs) =
      tail (b.toNat - 0xF0) 1 (if b = 0xF0 then 0x90 else 0x80) (if b = 0xF4 then 0x8F else 0xBF)
        3 bs := by
  simp only [codePoint, UInt8.lt_iff_toNat_lt, UInt8.reduceToNat]
  rw [if_neg (by omega), if_neg (by omega), if_neg (by omega), if_neg (by omega), if_pos h']

theorem toNat_ite_eq (b special low usual : UInt8) :
    (if b = special then low else usual).toNat =
      if b.toNat = special.toNat then low.toNat else usual.toNat := by
  by_cases h : b = special
  · rw [if_pos h, if_pos (congrArg UInt8.toNat h)]
  · rw [if_neg h, if_neg (fun he => h (UInt8.toNat_inj.mp he))]

theorem codePoint_encodeChar (c : Char) (rest : List UInt8) :
    codePoint (encodeChar c ++ rest) = .ok (c.toNat, rest) := by
  have hvalid : c.toNat < 0xD800 ∨ 0xDFFF < c.toNat ∧ c.toNat < 0x110000 := c.valid
  simp only [encodeChar]
  generalize c.toNat = n at hvalid ⊢
  by_cases h1 : n < 0x80
  · have hb : (UInt8.ofNat n).toNat = n := toNat_byte (by omega)
    rw [if_pos h1, List.cons_append, codePoint_one _ (by omega), hb]
    rfl
  rw [if_neg h1]
  by_cases h2 : n < 0x800
  · have hb : (UInt8.ofNat (0xC0 + n / 0x40)).toNat = 0xC0 + n / 0x40 := toNat_byte (by omega)
    rw [if_pos h2, List.cons_append, codePoint_two _ (by omega) (by omega), hb]
    simp only [List.cons_append, tail_following', tail_zero]
    congr 2
    omega
  rw [if_neg h2]
  by_cases h3 : n < 0x10000
  · have hb : (UInt8.ofNat (0xE0 + n / 0x1000)).toNat = 0xE0 + n / 0x1000 := toNat_byte (by omega)
    rw [if_pos h3, List.cons_append, codePoint_three _ (by omega) (by omega), hb, List.cons_append,
      tail_following _ (by rw [toNat_ite_eq, hb]; simp only [UInt8.reduceToNat]; split <;> omega)
        (by rw [toNat_ite_eq, hb]; simp only [UInt8.reduceToNat]; split <;> omega)]
    simp only [List.cons_append, tail_following', tail_zero]
    congr 2
    omega
  · have hb : (UInt8.ofNat (0xF0 + n / 0x40000)).toNat = 0xF0 + n / 0x40000 :=
      toNat_byte (by omega)
    rw [if_neg h3, List.cons_append, codePoint_four _ (by omega) (by omega), hb, List.cons_append,
      tail_following _ (by rw [toNat_ite_eq, hb]; simp only [UInt8.reduceToNat]; split <;> omega)
        (by rw [toNat_ite_eq, hb]; simp only [UInt8.reduceToNat]; split <;> omega)]
    simp only [List.cons_append, tail_following', tail_zero]
    congr 2
    omega

theorem decodeChar_encodeChar (c : Char) (rest : List UInt8) :
    decodeChar (encodeChar c ++ rest) = .ok (c, rest) := by
  rw [decodeChar, codePoint_encodeChar]
  exact congrArg (fun d => Except.ok (d, rest)) (Char.ofNat_toNat c)

theorem length_encodeChar_pos (c : Char) : 0 < (encodeChar c).length := by
  simp only [encodeChar]
  split
  · simp
  · split
    · simp
    · split <;> simp

theorem decodePrefix_encode (cs : List Char) {fuel : Nat} (h : cs.length ≤ fuel) :
    decodePrefix fuel (encode cs) = (cs, []) := by
  induction cs generalizing fuel with
  | nil => cases fuel <;> rfl
  | cons c cs ih =>
      cases fuel with
      | zero => exact absurd h (Nat.not_succ_le_zero _)
      | succ fuel =>
          have hrest := ih (Nat.le_of_succ_le_succ h)
          simp only [encode, List.flatMap_cons] at hrest ⊢
          simp only [decodePrefix, decodeChar_encodeChar, hrest]

theorem length_le_length_encode (cs : List Char) : cs.length ≤ (encode cs).length := by
  induction cs with
  | nil => exact Nat.le_refl 0
  | cons c cs ih =>
      have hc := length_encodeChar_pos c
      simp only [encode, List.flatMap_cons, List.length_append, List.length_cons] at ih ⊢
      omega

theorem decode_encode (cs : List Char) : decode (encode cs) = .ok cs := by
  rw [decode, decodePrefix_encode cs (length_le_length_encode cs)]

theorem prefix_of_encode_prefix {ds cs : List Char} (h : encode ds <+: encode cs) : ds <+: cs := by
  induction ds generalizing cs with
  | nil => exact List.nil_prefix
  | cons d ds ih =>
      obtain ⟨rest, hrest⟩ := h
      have hd := decodeChar_encodeChar d (encode ds ++ rest)
      rw [← List.append_assoc, encode, ← List.flatMap_cons, ← encode, hrest] at hd
      cases cs with
      | nil => cases hd
      | cons c cs =>
          have hc : decodeChar (encode (c :: cs)) = .ok (c, encode cs) := decodeChar_encodeChar c _
          rw [hc] at hd
          obtain ⟨rfl, hcs⟩ := Prod.mk.inj (Except.ok.inj hd)
          exact List.prefix_cons_inj c |>.mpr (ih ⟨rest, hcs.symm⟩)

theorem toNat_ofNat_of_valid {n : Nat} (h : n < 0xD800 ∨ 0xDFFF < n ∧ n < 0x110000) :
    (Char.ofNat n).toNat = n := by
  rw [Char.ofNat, dif_pos h]
  rfl

theorem encodeChar_ofNat {n : Nat} (h : n < 0xD800 ∨ 0xDFFF < n ∧ n < 0x110000) :
    encodeChar (Char.ofNat n) =
      if n < 0x80 then [UInt8.ofNat n]
      else if n < 0x800 then [UInt8.ofNat (0xC0 + n / 0x40), following n]
      else if n < 0x10000 then
        [UInt8.ofNat (0xE0 + n / 0x1000), following (n / 0x40), following n]
      else
        [UInt8.ofNat (0xF0 + n / 0x40000), following (n / 0x1000), following (n / 0x40),
          following n] := by
  rw [encodeChar, toNat_ofNat_of_valid h]

theorem tail_eq_ok {value seen count n : Nat} {low high : UInt8} {bs rest : List UInt8}
    (h : tail value seen low high (count + 1) bs = .ok (n, rest)) :
    ∃ b bs', bs = b :: bs' ∧ low.toNat ≤ b.toNat ∧ b.toNat ≤ high.toNat ∧
      tail (value * 0x40 + b.toNat % 0x40) (seen + 1) 0x80 0xBF count bs' = .ok (n, rest) := by
  cases bs with
  | nil => cases h
  | cons b bs' =>
      rw [tail] at h
      split at h
      · rename_i hbounds
        rw [UInt8.le_iff_toNat_le, UInt8.le_iff_toNat_le] at hbounds
        exact ⟨b, bs', rfl, hbounds.1, hbounds.2, h⟩
      · cases h

theorem following_eq {b : UInt8} {n : Nat} (hlow : 0x80 ≤ b.toNat) (hhigh : b.toNat ≤ 0xBF)
    (hn : n % 0x40 = b.toNat % 0x40) : following n = b := by
  apply UInt8.toNat_inj.mp
  rw [toNat_following]
  omega

theorem ofNat_eq {b : UInt8} {n : Nat} (h : n = b.toNat) : UInt8.ofNat n = b := by
  rw [h, UInt8.ofNat_toNat]

theorem codePoint_eq_ok {bs rest : List UInt8} {n : Nat} (h : codePoint bs = .ok (n, rest)) :
    bs = encodeChar (Char.ofNat n) ++ rest := by
  cases bs with
  | nil => cases h
  | cons b bs =>
      simp only [codePoint, UInt8.lt_iff_toNat_lt, UInt8.reduceToNat] at h
      split at h
      · rename_i h1
        cases h
        rw [encodeChar_ofNat (.inl (by omega)), if_pos h1, ofNat_eq rfl]
        rfl
      split at h
      · cases h
      split at h
      · obtain ⟨c, bs, rfl, hc, hc', h⟩ := tail_eq_ok h
        cases h
        simp only [UInt8.reduceToNat] at hc hc'
        generalize hn : (b.toNat - 0xC0) * 0x40 + c.toNat % 0x40 = n
        rw [encodeChar_ofNat (.inl (by omega)), if_neg (by omega), if_pos (by omega),
          ofNat_eq (b := b) (by omega), following_eq (b := c) hc hc' (by omega)]
        rfl
      split at h
      · obtain ⟨c, bs, rfl, hc, hc', h⟩ := tail_eq_ok h
        obtain ⟨d, bs, rfl, hd, hd', h⟩ := tail_eq_ok h
        cases h
        have hlow : 0x80 ≤ c.toNat ∧ (b.toNat = 0xE0 → 0xA0 ≤ c.toNat) := by
          rw [toNat_ite_eq] at hc
          simp only [UInt8.reduceToNat] at hc
          split at hc <;> omega
        have hhigh : c.toNat ≤ 0xBF ∧ (b.toNat = 0xED → c.toNat ≤ 0x9F) := by
          rw [toNat_ite_eq] at hc'
          simp only [UInt8.reduceToNat] at hc'
          split at hc' <;> omega
        simp only [UInt8.reduceToNat] at hd hd'
        generalize hn : ((b.toNat - 0xE0) * 0x40 + c.toNat % 0x40) * 0x40 + d.toNat % 0x40 = n
        rw [encodeChar_ofNat (by omega), if_neg (by omega), if_neg (by omega), if_pos (by omega),
          ofNat_eq (b := b) (by omega), following_eq (b := c) hlow.1 hhigh.1 (by omega),
          following_eq (b := d) hd hd' (by omega)]
        rfl
      split at h
      · obtain ⟨c, bs, rfl, hc, hc', h⟩ := tail_eq_ok h
        obtain ⟨d, bs, rfl, hd, hd', h⟩ := tail_eq_ok h
        obtain ⟨e, bs, rfl, he, he', h⟩ := tail_eq_ok h
        cases h
        have hlow : 0x80 ≤ c.toNat ∧ (b.toNat = 0xF0 → 0x90 ≤ c.toNat) := by
          rw [toNat_ite_eq] at hc
          simp only [UInt8.reduceToNat] at hc
          split at hc <;> omega
        have hhigh : c.toNat ≤ 0xBF ∧ (b.toNat = 0xF4 → c.toNat ≤ 0x8F) := by
          rw [toNat_ite_eq] at hc'
          simp only [UInt8.reduceToNat] at hc'
          split at hc' <;> omega
        simp only [UInt8.reduceToNat] at hd hd' he he'
        generalize hn : (((b.toNat - 0xF0) * 0x40 + c.toNat % 0x40) * 0x40 + d.toNat % 0x40) * 0x40 +
          e.toNat % 0x40 = n
        rw [encodeChar_ofNat (by omega), if_neg (by omega), if_neg (by omega), if_neg (by omega),
          ofNat_eq (b := b) (by omega), following_eq (b := c) hlow.1 hhigh.1 (by omega),
          following_eq (b := d) hd hd' (by omega), following_eq (b := e) he he' (by omega)]
        rfl
      · cases h

theorem decodeChar_eq_ok {bs rest : List UInt8} {c : Char} (h : decodeChar bs = .ok (c, rest)) :
    bs = encodeChar c ++ rest := by
  rw [decodeChar] at h
  cases hcode : codePoint bs with
  | error fault =>
      rw [hcode] at h
      cases h
  | ok result =>
      rw [hcode] at h
      cases h
      exact codePoint_eq_ok hcode

theorem decodePrefix_eq {fuel : Nat} {bs rest : List UInt8} {cs : List Char}
    (h : decodePrefix fuel bs = (cs, rest)) : bs = encode cs ++ rest := by
  induction fuel generalizing bs cs with
  | zero =>
      cases h
      rfl
  | succ fuel ih =>
      rw [decodePrefix] at h
      cases hchar : decodeChar bs with
      | error fault =>
          rw [hchar] at h
          cases h
          rfl
      | ok result =>
          rw [hchar] at h
          cases h
          rw [decodeChar_eq_ok hchar, encode, List.flatMap_cons, List.append_assoc]
          exact congrArg (encodeChar result.1 ++ ·) (ih rfl)

theorem decode_eq_ok {bs : List UInt8} {cs : List Char} (h : decode bs = .ok cs) :
    bs = encode cs := by
  rw [decode] at h
  split at h
  · rename_i hprefix
    cases h
    rw [decodePrefix_eq hprefix, List.append_nil]
  · split at h <;> cases h

end Cutscene.Utf8
