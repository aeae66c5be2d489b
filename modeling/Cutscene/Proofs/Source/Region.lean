import Cutscene.Proofs.Source.Line

namespace Cutscene.Source

/-- How far a search for comments has got: whether it is in one, and whether a backslash covers the
next character. -/
structure Place where
  inside : Bool := false
  escaped : Bool := false
  deriving DecidableEq, Repr

namespace Place

def next (p : Place) (c : Char) : Place :=
  if p.escaped then { p with escaped := false }
  else if c = '\\' then { p with escaped := true }
  else if c = '#' then { p with inside := !p.inside }
  else p

def after (p : Place) (cs : List Char) : Place := cs.foldl next p

theorem escaped_after (inside inside' escaped : Bool) (cs : List Char) :
    ((⟨inside, escaped⟩ : Place).after cs).escaped =
      ((⟨inside', escaped⟩ : Place).after cs).escaped := by
  induction cs generalizing inside inside' escaped with
  | nil => rfl
  | cons c cs ih =>
    simp only [after, List.foldl_cons, next]
    split
    · exact ih inside inside' false
    · split
      · exact ih inside inside' true
      · split
        · exact ih (!inside) (!inside') escaped
        · exact ih inside inside' escaped

end Place

theorem stripFrom_append (p : Place) (cs ds : List Char) :
    stripFrom p.inside p.escaped (cs ++ ds) =
      stripFrom p.inside p.escaped cs ++
        stripFrom (p.after cs).inside (p.after cs).escaped ds := by
  induction cs generalizing p with
  | nil => rfl
  | cons c cs ih =>
    obtain ⟨inside, escaped⟩ := p
    simp only [Place.after, List.foldl_cons, List.cons_append, stripFrom, Place.next] at ih ⊢
    split
    · have hrest := ih ⟨inside, false⟩
      cases inside <;> simpa using hrest
    · rename_i hescaped
      rw [Bool.not_eq_true] at hescaped
      subst hescaped
      split
      · have hrest := ih ⟨inside, true⟩
        cases inside <;> simpa using hrest
      · split
        · exact ih ⟨!inside, false⟩
        · have hrest := ih ⟨inside, false⟩
          cases inside <;> simpa using hrest

namespace Bare

variable {escaped : Bool} {cs : List Char}

theorem inside_after (h : Bare escaped cs) (inside : Bool) :
    ((⟨inside, escaped⟩ : Place).after cs).inside = inside := by
  induction h with
  | nil => rfl
  | escaped _ ih => exact ih
  | backslash _ ih => exact ih
  | @cons c cs hbackslash hmark _ ih =>
    have hnext : Place.next ⟨inside, false⟩ c = ⟨inside, false⟩ := by
      simp [Place.next, hbackslash, hmark]
    rw [Place.after, List.foldl_cons, hnext]
    exact ih

theorem stripFrom_inside (h : Bare escaped cs) : stripFrom true escaped cs = [] := by
  induction h with
  | nil => rfl
  | escaped _ ih => simp [stripFrom, ih]
  | backslash _ ih => simp [stripFrom, ih]
  | cons hbackslash hmark _ ih => simp [stripFrom, hbackslash, hmark, ih]

end Bare

/-- Nothing that the text opens is left open at its end: neither a comment, nor a backslash without
a character. -/
def Closed (cs : List Char) : Prop := Place.after {} cs = {}

theorem Closed.strip_append {cs : List Char} (h : Closed cs) (ds : List Char) :
    strip (cs ++ ds) = strip cs ++ strip ds := by
  have hsplit := stripFrom_append {} cs ds
  rw [h] at hsplit
  exact hsplit

theorem strip_region {cs : List Char} (hbare : Bare false cs) (hclosed : Closed cs)
    (ds : List Char) : strip ('#' :: (cs ++ '#' :: ds)) = strip ds := by
  have hescaped : ((⟨true, false⟩ : Place).after cs).escaped = false := by
    rw [Place.escaped_after true false, show Place.after ⟨false, false⟩ cs = {} from hclosed]
  have hsplit := stripFrom_append ⟨true, false⟩ cs ('#' :: ds)
  rw [hbare.stripFrom_inside, hbare.inside_after true, hescaped, List.nil_append] at hsplit
  calc strip ('#' :: (cs ++ '#' :: ds))
    _ = stripFrom true false (cs ++ '#' :: ds) := rfl
    _ = stripFrom true false ('#' :: ds) := hsplit
    _ = strip ds := rfl

theorem strip_strip (cs : List Char) : strip (strip cs) = strip cs :=
  (bare_stripFrom false false cs).stripFrom_eq

def kept (line : List Char) : List Char := line.filter (!isIgnored ·)

theorem kept_append (cs ds : List Char) : kept (cs ++ ds) = kept cs ++ kept ds :=
  List.filter_append cs ds

theorem kept_mark (cs : List Char) : kept ('#' :: cs) = '#' :: kept cs := rfl

theorem readLine_of_strip_eq {line line' : List Char} (h : strip (kept line) = strip (kept line')) :
    readLine line = readLine line' := by
  rw [readLine, readLine, ← kept, ← kept, h]

/-- A comment can be put into a line wherever it would not be part of another one or follow a lone
backslash, and nothing is read in a different way. One that is not closed goes on to the end of the
line. The removal of comments leaves none to be removed. -/
theorem comments_transparent :
    (∀ before comment rest : List Char, Closed (kept before) → Bare false (kept comment) →
      Closed (kept comment) →
        readLine (before ++ '#' :: (comment ++ '#' :: rest)) = readLine (before ++ rest)) ∧
    (∀ before comment : List Char, Closed (kept before) → Bare false (kept comment) →
      readLine (before ++ '#' :: comment) = readLine before) ∧
    ∀ cs : List Char, strip (strip cs) = strip cs := by
  refine ⟨fun before comment rest hbefore hbare hclosed => readLine_of_strip_eq ?_,
    fun before comment hbefore hbare => readLine_of_strip_eq ?_, strip_strip⟩
  · rw [kept_append, kept_mark, kept_append, kept_mark, kept_append, hbefore.strip_append,
      hbefore.strip_append, strip_region hbare hclosed]
  · have hopen : strip ('#' :: kept comment) = [] := hbare.stripFrom_inside
    rw [kept_append, kept_mark, hbefore.strip_append, hopen, List.append_nil]

theorem comments_transparent_quoted :
    let before := ['s', 'a', 'y', ' ', '"', 'x']
    let comment := ['\\', '\t', '#']
    let rest := ['y', '"']
    Closed (kept before) ∧ Bare false (kept comment) ∧ Closed (kept comment) ∧
      readLine (before ++ '#' :: (comment ++ '#' :: rest)) = readLine (before ++ rest) ∧
      readLine (before ++ '#' :: comment) = readLine before := by
  intro before comment rest
  have hbefore : Closed (kept before) := by
    rw [Closed]
    decide
  have hbare : Bare false (kept comment) := .backslash (.escaped .nil)
  have hclosed : Closed (kept comment) := by
    rw [Closed]
    decide
  obtain ⟨hregion, hopen, -⟩ := comments_transparent
  exact ⟨hbefore, hbare, hclosed, hregion before comment rest hbefore hbare hclosed,
    hopen before comment hbefore hbare⟩

end Cutscene.Source
