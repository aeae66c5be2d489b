import Mathlib
import Cutscene.Text.Case

namespace Cutscene.Text

namespace CaseRun

def avoids (r : CaseRun) (low high step : Nat) : Bool :=
  high.blt r.first || r.last.blt low ||
    (r.step == 2 && r.first ≤ low && (low - r.first) % 2 == 1 && (step == 2 || low == high))

/-- What the run leads to is not lowered further. The Kelvin sign alone becomes an ASCII letter. -/
def settles (r : CaseRun) : Bool :=
  let low := (r.first + r.shift).toNat
  let high := (r.last + r.shift).toNat
  0 ≤ r.first + r.shift && (high < 0xD800 || 0xDFFF < low) && high < 0x110000 &&
    (high < 0x130 || 0x130 < low) &&
    (0x80 ≤ low || (r.first == 0x212A && r.last == 0x212A && low == 0x6B)) &&
    lowerRuns.all (·.avoids low high r.step)

theorem lower?_eq_some {r : CaseRun} {m n : Nat} (h : r.lower? m = some n) :
    r.first ≤ m ∧ m ≤ r.last ∧ (m - r.first) % r.step = 0 ∧ (m + r.shift).toNat = n := by
  rw [lower?] at h
  split at h
  · rename_i hmem
    exact ⟨hmem.1, hmem.2.1, hmem.2.2, Option.some.inj h⟩
  · cases h

theorem lower?_of_avoids {q r : CaseRun} {m n : Nat} (hr : r.lower? m = some n)
    (h : q.avoids (r.first + r.shift).toNat (r.last + r.shift).toNat r.step = true) :
    q.lower? n = none := by
  obtain ⟨hfirst, hlast, hstep, rfl⟩ := lower?_eq_some hr
  simp only [avoids, Bool.or_eq_true, Bool.and_eq_true, decide_eq_true_eq, beq_iff_eq,
    Nat.blt_eq] at h
  apply if_neg
  rintro ⟨hq, hq', hqstep⟩
  rcases h with (h | h) | ⟨⟨⟨h2, h⟩, hodd⟩, hr2 | hone⟩
  · omega
  · omega
  · rw [h2] at hqstep
    rw [hr2] at hstep
    omega
  · rw [h2] at hqstep
    omega

end CaseRun

theorem settles_of_mem_lowerRuns {r : CaseRun} (h : r ∈ lowerRuns) : r.settles = true := by
  have hall : lowerRuns.all CaseRun.settles = true := by decide +kernel
  exact List.all_eq_true.mp hall r h

/-- Such a character is its own lower case, wherever it stands. -/
structure Settled (c : Char) : Prop where
  lowerChar_eq : lowerChar c = [c]
  ne_sigma : c ≠ 'Σ'

theorem toNat_ofNat_of_lt {n : Nat} (h : n < 0xD800 ∨ 0xDFFF < n) (hlt : n < 0x110000) :
    (Char.ofNat n).toNat = n := by
  have hvalid : n.isValidChar := by
    rcases h with h | h
    · exact .inl h
    · exact .inr ⟨h, hlt⟩
  rw [Char.ofNat, dif_pos hvalid]
  rfl

theorem settled_of_ascii {c : Char} (h : c.toNat < 0x80) (hlower : c.toLower = c) : Settled c := by
  constructor
  · rw [lowerChar, if_pos h, hlower]
  · rintro rfl
    exact absurd h (by decide)

theorem settled_of_findSome? {m n : Nat} (h : lowerRuns.findSome? (·.lower? m) = some n) :
    Settled (Char.ofNat n) ∧
      ((m = 0x212A ∧ Char.ofNat n = 'k') ∨ 0x80 ≤ (Char.ofNat n).toNat) := by
  obtain ⟨r, hmem, hr⟩ := List.exists_of_findSome?_eq_some h
  have hsettles := settles_of_mem_lowerRuns hmem
  simp only [CaseRun.settles, Bool.and_eq_true, Bool.or_eq_true, decide_eq_true_eq, beq_iff_eq,
    List.all_eq_true] at hsettles
  obtain ⟨⟨⟨⟨⟨hpos, hvalid⟩, hlt⟩, hdotted⟩, hascii⟩, hall⟩ := hsettles
  have hnone : lowerRuns.findSome? (·.lower? n) = none := by
    rw [List.findSome?_eq_none_iff]
    intro q hq
    exact CaseRun.lower?_of_avoids hr (hall q hq)
  obtain ⟨hfirst, hlast, -, hn⟩ := CaseRun.lower?_eq_some hr
  have htoNat : (Char.ofNat n).toNat = n := toNat_ofNat_of_lt (by omega) (by omega)
  by_cases hk : n = 0x6B
  · have hm : m = 0x212A := by omega
    subst hk
    exact ⟨settled_of_ascii (by decide) (by decide), .inl ⟨hm, by decide⟩⟩
  · have hge : 0x80 ≤ n := by omega
    refine ⟨⟨?_, ?_⟩, .inr (by omega)⟩
    · have hdot : Char.ofNat n ≠ 'İ' := by
        intro heq
        have hnot : n = 0x130 := by rw [← htoNat, heq]; decide
        omega
      rw [lowerChar, htoNat, if_neg (by omega), if_neg hdot, hnone]
    · intro heq
      have hsigma : n = 0x3A3 := by rw [← htoNat, heq]; decide
      subst hsigma
      exact absurd hnone (by decide)

theorem toNat_toLower_lt_iff {c : Char} : c.toLower.toNat < 0x80 ↔ c.toNat < 0x80 := by
  by_cases hupper : c.isUpper = true
  · have hle : c.toNat ≤ 0x5A := by
      simp only [Char.isUpper, ge_iff_le, decide_eq_true_eq] at hupper
      exact hupper.2
    rw [Char.toLower_eq_of_isUpper hupper, toNat_ofNat_of_lt (by omega) (by omega)]
    omega
  · rw [Char.toLower_eq_of_not_isUpper hupper]

theorem toLower_eq_or_isLower (c : Char) : c.toLower = c ∨ c.toLower.isLower = true := by
  by_cases hupper : c.isUpper = true
  · right
    rw [Char.isLower_toLower_eq_isAlpha, Char.isAlpha, hupper, Bool.true_or]
  · left
    exact Char.toLower_eq_of_not_isUpper hupper

theorem settled_of_mem_lowerChar {c d : Char} (h : c ∈ lowerChar d) :
    Settled c ∧ (c = d ∨ c.isLower = true ∨ 0x80 ≤ c.toNat) := by
  rw [lowerChar] at h
  split at h
  · rename_i hascii
    rw [List.mem_singleton.mp h]
    constructor
    · exact settled_of_ascii (toNat_toLower_lt_iff.mpr hascii) d.toLower_toLower_eq_toLower
    · exact (toLower_eq_or_isLower d).imp_right .inl
  · rename_i hascii
    split at h
    · simp only [List.mem_cons, List.not_mem_nil, or_false] at h
      rcases h with rfl | rfl
      · exact ⟨settled_of_ascii (by decide) (by decide), .inr (.inl (by decide))⟩
      · exact ⟨⟨by decide, by decide⟩, .inr (.inr (by decide))⟩
    · rename_i hdotted
      cases hfind : lowerRuns.findSome? (·.lower? d.toNat) with
      | none =>
        rw [hfind] at h
        obtain rfl := List.mem_singleton.mp h
        refine ⟨⟨?_, ?_⟩, .inl rfl⟩
        · rw [lowerChar, if_neg hascii, if_neg hdotted, hfind]
        · rintro rfl
          exact absurd hfind (by decide)
      | some n =>
        rw [hfind] at h
        obtain rfl := List.mem_singleton.mp h
        obtain ⟨hsettled, ⟨-, hk⟩ | hge⟩ := settled_of_findSome? hfind
        · exact ⟨hsettled, .inr (.inl (by rw [hk]; decide))⟩
        · exact ⟨hsettled, .inr (.inr hge)⟩

theorem lowerChar_ne_nil (c : Char) : lowerChar c ≠ [] := by
  rw [lowerChar]
  split
  · exact List.cons_ne_nil _ _
  · split
    · exact List.cons_ne_nil _ _
    · split <;> exact List.cons_ne_nil _ _

theorem settled_of_mem_lowerAfter {before cs : List Char} {c : Char}
    (h : c ∈ lowerAfter before cs) : Settled c := by
  induction cs generalizing before with
  | nil => cases h
  | cons d cs ih =>
    rw [lowerAfter] at h
    rcases List.mem_append.mp h with h | h
    · split at h
      · split at h
        · rw [List.mem_singleton.mp h]
          exact ⟨by decide, by decide⟩
        · rw [List.mem_singleton.mp h]
          exact ⟨by decide, by decide⟩
      · exact (settled_of_mem_lowerChar h).1
    · exact ih h

theorem lowerAfter_of_settled {before cs : List Char} (h : ∀ c ∈ cs, Settled c) :
    lowerAfter before cs = cs := by
  induction cs generalizing before with
  | nil => rfl
  | cons c cs ih =>
    have hc := h c List.mem_cons_self
    rw [lowerAfter, ih fun d hd => h d (List.mem_cons_of_mem c hd)]
    simp only [if_neg hc.ne_sigma, hc.lowerChar_eq]
    rfl

theorem lowerAfter_cons (before cs : List Char) (c : Char) :
    ∃ lowered, lowerAfter before (c :: cs) = lowered ++ lowerAfter (c :: before) cs ∧
      lowered ≠ [] ∧ ∀ d ∈ lowered, d = c ∨ d.isLower = true ∨ 0x80 ≤ d.toNat := by
  refine ⟨_, rfl, ?_, ?_⟩
  · split
    · split <;> exact List.cons_ne_nil _ _
    · exact lowerChar_ne_nil c
  · intro d hd
    split at hd
    · split at hd
      · rw [List.mem_singleton.mp hd]
        exact .inr (.inr (by decide))
      · rw [List.mem_singleton.mp hd]
        exact .inr (.inr (by decide))
    · exact (settled_of_mem_lowerChar hd).2

theorem toNat_lt_of_lowerChar {c : Char} (hkelvin : c ≠ '\u212A')
    (h : ∀ d ∈ lowerChar c, d.toNat < 0x80) : c.toNat < 0x80 := by
  rw [lowerChar] at h
  split at h
  · assumption
  · split at h
    · exact absurd (h (Char.ofNat 0x307) (by simp)) (by decide)
    · cases hfind : lowerRuns.findSome? (·.lower? c.toNat) with
      | none =>
        rw [hfind] at h
        exact h c (List.mem_singleton_self c)
      | some n =>
        rw [hfind] at h
        have hlt := h (Char.ofNat n) (List.mem_singleton_self _)
        obtain ⟨-, ⟨hm, -⟩ | hge⟩ := settled_of_findSome? hfind
        · exact absurd (Char.toNat_inj.mp hm) hkelvin
        · omega

theorem lowerAfter_of_ascii {before cs : List Char} (hkelvin : '\u212A' ∉ cs)
    (h : ∀ c ∈ lowerAfter before cs, c.toNat < 0x80) :
    lowerAfter before cs = cs.map Char.toLower := by
  induction cs generalizing before with
  | nil => rfl
  | cons c cs ih =>
    simp only [List.mem_cons, not_or] at hkelvin
    rw [lowerAfter] at h ⊢
    have hrest := ih hkelvin.2 fun d hd => h d (List.mem_append_right _ hd)
    have hsigma : c ≠ 'Σ' := by
      rintro rfl
      simp only [if_true] at h
      split at h
      · exact absurd (h 'ς' (List.mem_append_left _ (List.mem_singleton_self _))) (by decide)
      · exact absurd (h 'σ' (List.mem_append_left _ (List.mem_singleton_self _))) (by decide)
    simp only [if_neg hsigma] at h ⊢
    have hc : c.toNat < 0x80 :=
      toNat_lt_of_lowerChar (Ne.symm hkelvin.1) fun d hd => h d (List.mem_append_left _ hd)
    rw [hrest, lowerChar, if_pos hc]
    rfl

theorem mem_lowerAfter {before cs : List Char} {d : Char} (h : d ∈ lowerAfter before cs) :
    d ∈ cs ∨ d.isLower = true ∨ 0x80 ≤ d.toNat := by
  induction cs generalizing before with
  | nil => cases h
  | cons c cs ih =>
    obtain ⟨lowered, hlowered, -, hmem⟩ := lowerAfter_cons before cs c
    rw [hlowered] at h
    rcases List.mem_append.mp h with h | h
    · rcases hmem d h with rfl | hletter
      · exact .inl List.mem_cons_self
      · exact .inr hletter
    · rcases ih h with hd | hletter
      · exact .inl (List.mem_cons_of_mem c hd)
      · exact .inr hletter

theorem lower_eq_self_iff {s : String} : lower s = s ↔ ∀ c ∈ s.toList, Settled c := by
  constructor
  · intro h c hc
    rw [← h, lower, String.toList_ofList] at hc
    exact settled_of_mem_lowerAfter hc
  · intro h
    rw [lower, lowerAfter_of_settled h, String.ofList_toList]

theorem lower_lower (s : String) : lower (lower s) = lower s := by
  rw [lower_eq_self_iff, lower, String.toList_ofList]
  exact fun c hc => settled_of_mem_lowerAfter hc

theorem lowerFirst_of_lower_eq_self {s : String} (h : lower s = s) : lowerFirst s = s := by
  have hsettled := lower_eq_self_iff.mp h
  rw [lowerFirst]
  cases hs : s.toList with
  | nil => exact (String.toList_eq_nil_iff.mp hs).symm
  | cons c cs =>
    rw [hs] at hsettled
    simp only [(hsettled c List.mem_cons_self).lowerChar_eq]
    rw [List.singleton_append, ← hs, String.ofList_toList]

end Cutscene.Text
