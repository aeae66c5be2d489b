import Cutscene.Record.Reader

namespace Cutscene.Record

/-- The reader takes exactly these bytes for the value, and runs out of bytes on every shorter
beginning of them. -/
structure Spells {α : Type} (read : Reader α) (bs : List UInt8) (a : α) : Prop where
  whole : ∀ rest, read (bs ++ rest) = .ok (a, rest)
  cut : ∀ p, p <+: bs → p ≠ bs → read p = .error .truncated

variable {α β : Type}

theorem bind_of_ok {read : Reader α} {next : α → Reader β} {bs rest : List UInt8} {a : α}
    (h : read bs = .ok (a, rest)) : (read >>= next) bs = next a rest := by
  change (read bs >>= fun p => next p.1 p.2) = _
  rw [h]
  rfl

theorem bind_of_error {read : Reader α} {next : α → Reader β} {bs : List UInt8} {e : DecodeError}
    (h : read bs = .error e) : (read >>= next) bs = .error e := by
  change (read bs >>= fun p => next p.1 p.2) = _
  rw [h]
  rfl

theorem eq_append_of_isPrefix_append {p bs cs : List UInt8} (h : p <+: bs ++ cs)
    (hne : p ≠ bs ++ cs) :
    (p <+: bs ∧ p ≠ bs) ∨ ∃ q, p = bs ++ q ∧ q <+: cs ∧ q ≠ cs := by
  obtain ⟨t, ht⟩ := h
  obtain ⟨u, hbs, -⟩ | ⟨q, hp, hcs⟩ := List.append_eq_append_iff.mp ht
  · by_cases he : p = bs
    · refine Or.inr ⟨[], by simp [he], List.nil_prefix, ?_⟩
      intro hcs
      exact hne (by simp [he, ← hcs])
    · exact Or.inl ⟨⟨u, hbs.symm⟩, he⟩
  · refine Or.inr ⟨q, hp, ⟨t, hcs.symm⟩, ?_⟩
    intro he
    exact hne (by rw [hp, he])

namespace Spells

theorem pure (a : α) : Spells (Pure.pure a) [] a where
  whole _ := rfl
  cut _ hp hne := absurd (List.prefix_nil.mp hp) hne

theorem bind {read : Reader α} {next : α → Reader β} {bs cs : List UInt8} {a : α} {b : β}
    (h : Spells read bs a) (hnext : Spells (next a) cs b) :
    Spells (read >>= next) (bs ++ cs) b where
  whole rest := by
    rw [List.append_assoc, bind_of_ok (h.whole _)]
    exact hnext.whole rest
  cut p hp hne := by
    obtain ⟨hp, hne⟩ | ⟨q, rfl, hq, hne⟩ := eq_append_of_isPrefix_append hp hne
    · exact bind_of_error (h.cut p hp hne)
    · rw [bind_of_ok (h.whole q)]
      exact hnext.cut q hq hne

theorem bind_nil {read : Reader α} {next : α → Reader β} {bs : List UInt8} {a : α} {b : β}
    (h : Spells read bs a) (hnext : Spells (next a) [] b) : Spells (read >>= next) bs b := by
  have hbind := h.bind hnext
  rwa [List.append_nil] at hbind

theorem map {read : Reader α} {bs : List UInt8} {a : α} (h : Spells read bs a) (f : α → β) :
    Spells (read >>= fun a => Pure.pure (f a)) bs (f a) :=
  h.bind_nil (Spells.pure (f a))

theorem readByte (b : UInt8) : Spells readByte [b] b where
  whole _ := rfl
  cut p hp hne := by
    cases p with
    | nil => rfl
    | cons c p =>
        obtain ⟨rfl, ht⟩ := List.cons_prefix_cons.mp hp
        have hnil : p = [] := List.prefix_nil.mp ht
        exact absurd (congrArg (c :: ·) hnil) hne

theorem readByte_bind {next : UInt8 → Reader α} {b : UInt8} {bs : List UInt8} {a : α}
    (h : Spells (next b) bs a) : Spells (Record.readByte >>= next) (b :: bs) a :=
  (readByte b).bind h

theorem readMany {read : Reader α} (write : α → List UInt8) (as : List α)
    (h : ∀ a ∈ as, Spells read (write a) a) :
    Spells (readMany read as.length) (as.flatMap write) as := by
  induction as with
  | nil => exact Spells.pure []
  | cons a as ih =>
      have ha := h a (by simp)
      have has := ih fun b hb => h b (by simp [hb])
      exact ha.bind (has.map (a :: ·))

theorem readBytes (bs : List UInt8) : Spells (readBytes bs.length) bs bs := by
  have h := readMany (fun b => [b]) bs fun b _ => Spells.readByte b
  rwa [List.flatMap_singleton'] at h

end Spells

end Cutscene.Record
