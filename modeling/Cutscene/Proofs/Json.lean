import Cutscene.Json
import Cutscene.Proofs.Number.Literal
import Cutscene.Proofs.Text.Utf8

namespace Cutscene.Json

open Number

def isNumeric (c : Char) : Bool := c.isDigit || ['.', '-', '+', 'e'].contains c

/-- What is taken for a number in the document is written as one. -/
inductive Sound : Json → Prop
  | null : Sound null
  | bool (value : Bool) : Sound (bool value)
  | number {text : String} (hne : text.toList ≠ [])
      (hall : ∀ c ∈ text.toList, isNumeric c = true) : Sound (number text)
  | string (text : String) : Sound (string text)
  | array {items : List Json} (h : ∀ item ∈ items, Sound item) : Sound (array items)
  | object {fields : List (String × Json)} (h : ∀ field ∈ fields, Sound field.2) :
      Sound (object fields)

attribute [simp] Sound.null Sound.bool Sound.string

def field? (name : String) : Json → Option Json
  | object fields => fields.lookup name
  | _ => none

section Quote

def digitOf (c : Char) : Nat := if c.isDigit then c.toNat - 48 else c.toNat - 87

def unescape : List Char → Option (Char × List Char)
  | '\\' :: 'b' :: cs => some ('\x08', cs)
  | '\\' :: 'f' :: cs => some ('\x0c', cs)
  | '\\' :: 'n' :: cs => some ('\n', cs)
  | '\\' :: 'r' :: cs => some ('\r', cs)
  | '\\' :: 't' :: cs => some ('\t', cs)
  | '\\' :: 'u' :: '0' :: '0' :: a :: b :: cs =>
      some (Char.ofNat (16 * digitOf a + digitOf b), cs)
  | '\\' :: c :: cs => some (c, cs)
  | c :: cs => some (c, cs)
  | [] => none

theorem hexByte_control : ∀ n : Fin 0x20,
    (Text.hexByte (UInt8.ofNat n)).toList =
      [Nat.digitChar (n / 16), Nat.digitChar (n % 16)] ∧
      16 * digitOf (Nat.digitChar (n / 16)) + digitOf (Nat.digitChar (n % 16)) = n := by
  decide +kernel

theorem unescape_escape (c : Char) (rest : List Char) :
    unescape ((escape c).toList ++ rest) = some (c, rest) := by
  fun_cases escape c
  case case8 _ _ _ _ _ _ _ hcontrol =>
    obtain ⟨hspelt, hvalue⟩ := hexByte_control ⟨c.toNat, hcontrol⟩
    rw [String.toList_append, hspelt]
    change some (Char.ofNat _, rest) = _
    rw [hvalue, Char.ofNat_toNat]
  case case9 _ hbackslash _ _ _ _ _ _ =>
    rw [Char.toString_eq_singleton, String.toList_singleton, List.singleton_append, unescape]
    -- None of the escapes applies to it.
    all_goals exact fun _ => by intros; exact hbackslash ‹_›
  all_goals rfl

theorem head_escape (c : Char) (rest : List Char) :
    ∃ first others, (escape c).toList ++ rest = first :: others ∧ first ≠ '"' := by
  fun_cases escape c
  case case8 =>
    rw [String.toList_append]
    exact ⟨'\\', _, rfl, by decide⟩
  case case9 hquote _ _ _ _ _ _ _ =>
    rw [Char.toString_eq_singleton, String.toList_singleton]
    exact ⟨c, rest, rfl, hquote⟩
  all_goals exact ⟨'\\', _, rfl, by decide⟩

theorem escaped_append_inj {cs ds rest rest' : List Char}
    (h : (cs.flatMap fun c => (escape c).toList) ++ '"' :: rest =
      (ds.flatMap fun d => (escape d).toList) ++ '"' :: rest') : cs = ds ∧ rest = rest' := by
  induction cs generalizing ds with
  | nil =>
      cases ds with
      | nil => exact ⟨rfl, (List.cons.inj h).2⟩
      | cons d ds =>
          rw [List.flatMap_cons, List.append_assoc] at h
          obtain ⟨first, others, hfirst, hne⟩ :=
            head_escape d ((ds.flatMap fun d => (escape d).toList) ++ '"' :: rest')
          rw [hfirst] at h
          exact absurd (List.cons.inj h).1.symm hne
  | cons c cs ih =>
      rw [List.flatMap_cons, List.append_assoc] at h
      cases ds with
      | nil =>
          obtain ⟨first, others, hfirst, hne⟩ :=
            head_escape c ((cs.flatMap fun c => (escape c).toList) ++ '"' :: rest)
          rw [hfirst] at h
          exact absurd (List.cons.inj h).1 hne
      | cons d ds =>
          rw [List.flatMap_cons, List.append_assoc] at h
          have hfirst := congrArg unescape h
          rw [unescape_escape, unescape_escape] at hfirst
          obtain ⟨rfl, hothers⟩ := Prod.mk.inj (Option.some.inj hfirst)
          obtain ⟨rfl, hrest⟩ := ih hothers
          exact ⟨rfl, hrest⟩

theorem toList_quote (s : String) (rest : List Char) :
    (quote s).toList ++ rest =
      '"' :: ((s.toList.flatMap fun c => (escape c).toList) ++ '"' :: rest) := by
  rw [quote, String.toList_append, String.toList_append, String.toList_join, List.flatMap_map]
  simp

theorem quote_append_inj {s t : String} {rest rest' : List Char}
    (h : (quote s).toList ++ rest = (quote t).toList ++ rest') : s = t ∧ rest = rest' := by
  rw [toList_quote, toList_quote] at h
  obtain ⟨hst, hrest⟩ := escaped_append_inj (List.cons.inj h).2
  exact ⟨String.toList_inj.mp hst, hrest⟩

end Quote

section Render

def Parted (rest : List Char) : Prop := ∀ c ∈ rest.head?, isNumeric c = false

inductive Shape where
  | null
  | bool
  | number
  | string
  | array
  | object
  deriving DecidableEq

def shape : Json → Shape
  | null => .null
  | bool _ => .bool
  | number _ => .number
  | string _ => .string
  | array _ => .array
  | object _ => .object

def shapeOf (c : Char) : Shape :=
  if isNumeric c then .number
  else if c = 'n' then .null
  else if c = '"' then .string
  else if c = '[' then .array
  else if c = '\x7b' then .object
  else .bool

theorem renderItems_eq (indent : String) (items : List Json) :
    renderItems indent items = items.map (render indent) := by
  induction items with
  | nil => rfl
  | cons item items ih => rw [renderItems, ih, List.map_cons]

def renderField (indent : String) (field : String × Json) : String :=
  quote field.1 ++ ": " ++ render indent field.2

theorem renderFields_eq (indent : String) (fields : List (String × Json)) :
    renderFields indent fields = fields.map (renderField indent) := by
  induction fields with
  | nil => rfl
  | cons field fields ih => rw [renderFields, ih, List.map_cons, renderField]

def block (opening closing : Char) (indent : String) : List String → List Char
  | [] => [opening, closing]
  | part :: parts =>
      opening :: ((separate (indent ++ "  ") (part :: parts)).toList ++ (indent.toList ++ [closing]))

theorem toList_array (indent : String) (items : List Json) :
    (render indent (array items)).toList =
      block '[' ']' indent (items.map (render (indent ++ "  "))) := by
  cases items with
  | nil =>
      rw [render]
      rfl
  | cons item items =>
      rw [render, renderItems_eq]
      simp [block]

theorem toList_object (indent : String) (fields : List (String × Json)) :
    (render indent (object fields)).toList =
      block '\x7b' '\x7d' indent (fields.map (renderField (indent ++ "  "))) := by
  cases fields with
  | nil =>
      rw [render]
      rfl
  | cons field fields =>
      rw [render, renderFields_eq]
      simp [block]

theorem head_block (opening closing : Char) (indent : String) (parts : List String) :
    ∃ others, block opening closing indent parts = opening :: others := by
  cases parts with
  | nil => exact ⟨_, rfl⟩
  | cons part parts => exact ⟨_, rfl⟩

theorem head_render {j : Json} (h : Sound j) (indent : String) :
    ∃ first others, (render indent j).toList = first :: others ∧ shapeOf first = j.shape := by
  cases h with
  | null => exact ⟨'n', _, by rw [render]; rfl, rfl⟩
  | bool value =>
      cases value with
      | false => exact ⟨'f', _, by rw [render]; rfl, rfl⟩
      | true => exact ⟨'t', _, by rw [render]; rfl, rfl⟩
  | @number text hne hall =>
      obtain ⟨first, others, htext⟩ := List.exists_cons_of_ne_nil hne
      refine ⟨first, others, by rw [render, htext], ?_⟩
      rw [shapeOf, if_pos (hall first (by simp [htext]))]
      rfl
  | string text =>
      have htext := toList_quote text []
      rw [List.append_nil] at htext
      exact ⟨'"', _, by rw [render, htext], rfl⟩
  | @array items h =>
      obtain ⟨others, hothers⟩ := head_block '[' ']' indent (items.map (render (indent ++ "  ")))
      exact ⟨'[', others, (toList_array indent items).trans hothers, rfl⟩
  | @object fields h =>
      obtain ⟨others, hothers⟩ :=
        head_block '\x7b' '\x7d' indent (fields.map (renderField (indent ++ "  ")))
      exact ⟨'\x7b', others, (toList_object indent fields).trans hothers, rfl⟩

theorem shape_eq {a b : Json} (ha : Sound a) (hb : Sound b) {indent : String}
    {rest rest' : List Char}
    (h : (render indent a).toList ++ rest = (render indent b).toList ++ rest') :
    a.shape = b.shape := by
  obtain ⟨first, others, hfirst, hshape⟩ := head_render ha indent
  obtain ⟨first', others', hfirst', hshape'⟩ := head_render hb indent
  rw [hfirst, hfirst'] at h
  rw [← hshape, ← hshape', (List.cons.inj h).1]

theorem number_append_inj {cs ds rest rest' : List Char}
    (hcs : ∀ c ∈ cs, isNumeric c = true) (hds : ∀ c ∈ ds, isNumeric c = true)
    (hrest : Parted rest) (hrest' : Parted rest') (h : cs ++ rest = ds ++ rest') :
    cs = ds ∧ rest = rest' := by
  have htake {es rest : List Char} (hes : ∀ c ∈ es, isNumeric c = true) (hrest : Parted rest) :
      (es ++ rest).takeWhile isNumeric = es := by
    rw [List.takeWhile_append_of_pos hes]
    cases rest with
    | nil => simp
    | cons c rest => rw [List.takeWhile_cons_of_neg (by simp [hrest c rfl]), List.append_nil]
  have hsame := congrArg (List.takeWhile isNumeric) h
  rw [htake hcs hrest, htake hds hrest'] at hsame
  exact ⟨hsame, by rwa [hsame, List.append_cancel_left_eq] at h⟩

def following (indent : String) : List String → List Char
  | [] => ['\n']
  | part :: parts => ',' :: '\n' :: (indent.toList ++ part.toList ++ following indent parts)

theorem toList_separate (indent part : String) (parts : List String) :
    (separate indent (part :: parts)).toList =
      '\n' :: (indent.toList ++ part.toList ++ following indent parts) := by
  have hparts : (",\n".intercalate ((part :: parts).map (indent ++ ·))).toList ++ ['\n'] =
      indent.toList ++ part.toList ++ following indent parts := by
    induction parts generalizing part with
    | nil => simp [following]
    | cons next parts ih =>
        have hnext := ih next
        rw [String.toList_intercalate] at hnext ⊢
        simp only [List.map_cons, List.intercalate_cons_cons] at hnext ⊢
        rw [List.append_assoc, hnext]
        simp [following]
  rw [separate, String.toList_append, String.toList_append, List.append_assoc]
  exact congrArg ('\n' :: ·) hparts

theorem parted_following (indent : String) (parts : List String) (rest : List Char) :
    Parted (following indent parts ++ rest) := by
  cases parts with
  | nil =>
      rintro c ⟨⟩
      decide
  | cons part parts =>
      rintro c ⟨⟩
      decide

variable {α : Type} {show' : α → String}

theorem following_append_inj {indent : String} {as bs : List α} {rest rest' : List Char}
    (hpart : ∀ a ∈ as, ∀ b ∈ bs, ∀ rest rest', Parted rest → Parted rest' →
      (show' a).toList ++ rest = (show' b).toList ++ rest' → a = b ∧ rest = rest')
    (h : following indent (as.map show') ++ rest = following indent (bs.map show') ++ rest') :
    as = bs ∧ rest = rest' := by
  induction as generalizing bs with
  | nil =>
      cases bs with
      | nil => exact ⟨rfl, (List.cons.inj h).2⟩
      | cons b bs => exact absurd (List.cons.inj h).1 (by decide)
  | cons a as ih =>
      cases bs with
      | nil => exact absurd (List.cons.inj h).1 (by decide)
      | cons b bs =>
          simp only [List.map_cons, following, List.cons_append, List.append_assoc,
            List.cons.injEq, true_and, List.append_cancel_left_eq] at h
          obtain ⟨rfl, hothers⟩ := hpart a List.mem_cons_self b List.mem_cons_self _ _
            (parted_following _ _ _) (parted_following _ _ _) h
          obtain ⟨rfl, hrest⟩ := ih (fun a ha b hb =>
            hpart a (List.mem_cons_of_mem _ ha) b (List.mem_cons_of_mem _ hb)) hothers
          exact ⟨rfl, hrest⟩

theorem block_append_inj {opening closing : Char} (hclosing : closing ≠ '\n') {indent : String}
    {as bs : List α} {rest rest' : List Char}
    (hpart : ∀ a ∈ as, ∀ b ∈ bs, ∀ rest rest', Parted rest → Parted rest' →
      (show' a).toList ++ rest = (show' b).toList ++ rest' → a = b ∧ rest = rest')
    (h : block opening closing indent (as.map show') ++ rest =
      block opening closing indent (bs.map show') ++ rest') : as = bs ∧ rest = rest' := by
  cases as with
  | nil =>
      cases bs with
      | nil => exact ⟨rfl, List.append_cancel_left h⟩
      | cons b bs =>
          simp only [List.map_nil, List.map_cons, block, toList_separate] at h
          exact absurd (List.cons.inj (List.cons.inj h).2).1 hclosing
  | cons a as =>
      cases bs with
      | nil =>
          simp only [List.map_nil, List.map_cons, block, toList_separate] at h
          exact absurd (List.cons.inj (List.cons.inj h).2).1.symm hclosing
      | cons b bs =>
          simp only [List.map_cons, block, toList_separate, List.cons_append, List.cons.injEq,
            true_and, List.append_assoc _ _ rest, List.append_assoc _ _ rest'] at h
          have hlists : following (indent ++ "  ") ((a :: as).map show') ++
                (indent.toList ++ [closing] ++ rest) =
              following (indent ++ "  ") ((b :: bs).map show') ++
                (indent.toList ++ [closing] ++ rest') := by
            simpa [following] using h
          obtain ⟨hsame, hafter⟩ := following_append_inj hpart hlists
          exact ⟨hsame, List.append_cancel_left hafter⟩

/-- Documents have texts of their own, whatever comes after them. -/
theorem render_append_inj {a b : Json} (ha : Sound a) (hb : Sound b) {indent : String}
    {rest rest' : List Char} (hrest : Parted rest) (hrest' : Parted rest')
    (h : (render indent a).toList ++ rest = (render indent b).toList ++ rest') :
    a = b ∧ rest = rest' := by
  have hshape := shape_eq ha hb h
  induction ha generalizing b indent rest rest' with
  | null =>
      cases hb with
      | null => exact ⟨rfl, List.append_cancel_left h⟩
      | _ => cases hshape
  | bool value =>
      cases hb with
      | bool value' =>
          cases value <;> cases value' <;> simp_all [render]
      | _ => cases hshape
  | number hne hall =>
      cases hb with
      | number hne' hall' =>
          rw [render, render] at h
          obtain ⟨htext, hrest⟩ := number_append_inj hall hall' hrest hrest' h
          exact ⟨congrArg number (String.toList_inj.mp htext), hrest⟩
      | _ => cases hshape
  | string text =>
      cases hb with
      | string text' =>
          rw [render, render] at h
          obtain ⟨rfl, hrest⟩ := quote_append_inj h
          exact ⟨rfl, hrest⟩
      | _ => cases hshape
  | array hitems ih =>
      cases hb with
      | array hitems' =>
          rw [toList_array, toList_array] at h
          obtain ⟨rfl, hrest⟩ := block_append_inj (by decide)
            (fun x hx y hy _ _ hx' hy' h =>
              ih x hx (hitems' y hy) hx' hy' h (shape_eq (hitems x hx) (hitems' y hy) h)) h
          exact ⟨rfl, hrest⟩
      | _ => cases hshape
  | object hfields ih =>
      cases hb with
      | object hfields' =>
          rw [toList_object, toList_object] at h
          refine (block_append_inj (by decide) (fun x hx y hy _ _ hx' hy' h => ?_) h).imp_left
            (congrArg object)
          simp only [renderField, String.toList_append, List.append_assoc] at h
          obtain ⟨hname, h⟩ := quote_append_inj h
          have hvalue := List.append_cancel_left h
          obtain ⟨hsame, hrest⟩ := ih x hx (hfields' y hy) hx' hy' hvalue
            (shape_eq (hfields x hx) (hfields' y hy) hvalue)
          exact ⟨Prod.ext hname hsame, hrest⟩
      | _ => cases hshape

theorem text_inj {a b : Json} (ha : Sound a) (hb : Sound b) (h : a.text = b.text) : a = b := by
  have hparted : Parted [] := nofun
  have htext : (render "" a).toList ++ [] = (render "" b).toList ++ [] := by
    rw [List.append_nil, List.append_nil]
    exact congrArg String.toList h
  exact (render_append_inj ha hb hparted hparted htext).1

end Render

section Numbers

theorem isNumeric_of_isDigit {c : Char} (h : c.isDigit = true) : isNumeric c = true := by
  rw [isNumeric, h, Bool.true_or]

theorem isNumeric_of_mem_digits {n : Nat} {c : Char} (h : c ∈ digits n) : isNumeric c = true :=
  isNumeric_of_isDigit (isDigit_of_mem_digits h)

theorem sound_ofList {cs : List Char} (hne : cs ≠ []) (hall : ∀ c ∈ cs, isNumeric c = true) :
    Sound (number (String.ofList cs)) := by
  constructor
  · rwa [String.toList_ofList]
  · rwa [String.toList_ofList]

@[simp] theorem sound_nat (n : Nat) : Sound (nat n) :=
  @sound_ofList (digits n) (by simp [digits]) fun _ => isNumeric_of_mem_digits

@[simp] theorem sound_int (n : Int) : Sound (int n) := by
  cases n with
  | ofNat n => exact sound_nat n
  | negSucc n =>
      have htext : toString (Int.negSucc n) = String.ofList ('-' :: digits (n + 1)) := by
        change "-" ++ Nat.repr (n + 1) = _
        rw [Nat.repr, ← List.singleton_append, String.ofList_append]
        rfl
      rw [int, htext]
      refine sound_ofList (List.cons_ne_nil _ _) fun c hc => ?_
      rcases List.mem_cons.mp hc with rfl | hc
      · decide
      · exact isNumeric_of_mem_digits hc

theorem isNumeric_of_mem_plain {d : Scientific} {c : Char} (h : c ∈ d.plain) :
    isNumeric c = true := by
  rcases mem_fixed h with hc | rfl
  · exact isNumeric_of_isDigit hc
  · decide

theorem isNumeric_of_mem_scientific {n : Nat} {exponent : Int} {c : Char}
    (h : c ∈ scientific (digits n) exponent) : isNumeric c = true := by
  simp only [scientific, List.mem_append, List.mem_cons] at h
  rcases h with (hfirst | hfraction) | rfl | rfl | hexponent
  · exact isNumeric_of_mem_digits (List.mem_of_mem_take hfirst)
  · split at hfraction
    · cases hfraction
    · rcases List.mem_cons.mp hfraction with rfl | hc
      · decide
      · exact isNumeric_of_mem_digits (List.mem_of_mem_tail hc)
  · decide
  · split <;> decide
  · exact isNumeric_of_mem_digits hexponent

theorem isNumeric_of_mem_magnitudeText {range : PlainRange} {d : Scientific} {c : Char}
    (h : c ∈ magnitudeText range d) : isNumeric c = true := by
  simp only [magnitudeText] at h
  split at h
  · exact List.all_eq_true.mp (by decide : ['0', '.', '0'].all isNumeric = true) c h
  · split at h
    · split at h
      · rcases List.mem_append.mp h with h | h
        · exact isNumeric_of_mem_plain h
        · exact List.all_eq_true.mp (by decide : ['.', '0'].all isNumeric = true) c h
      · exact isNumeric_of_mem_plain h
    · exact isNumeric_of_mem_scientific h

theorem magnitudeText_ne_nil (range : PlainRange) (d : Scientific) : magnitudeText range d ≠ [] := by
  have hplain : d.plain ≠ [] := fixed_ne_nil _ _
  simp only [magnitudeText]
  split
  · exact List.cons_ne_nil _ _
  · split
    · split
      · exact List.append_ne_nil_of_left_ne_nil hplain _
      · exact hplain
    · simp [scientific]

@[simp] theorem sound_float (f : Format) (range : PlainRange) (bits : Nat) :
    Sound (float f range bits) := by
  rw [float]
  split
  · refine sound_ofList ?_ fun c hc => ?_
    · split
      · exact List.cons_ne_nil _ _
      · exact magnitudeText_ne_nil _ _
    · split at hc
      · rcases List.mem_cons.mp hc with rfl | hc
        · decide
        · exact isNumeric_of_mem_magnitudeText hc
      · exact isNumeric_of_mem_magnitudeText hc
  · exact .null

end Numbers

/-- The bytes are those of this document and of no other. -/
structure Written (j : Json) (bytes : List UInt8) : Prop where
  sound : Sound j
  text : bytes = Utf8.encode j.text.toList
  only : ∀ other, Sound other → Utf8.encode other.text.toList = bytes → other = j

theorem Sound.written {j : Json} (h : Sound j) : Written j (Utf8.encode j.text.toList) where
  sound := h
  text := rfl
  only other hother hbytes := by
    have htext := congrArg Utf8.decode hbytes
    rw [Utf8.decode_encode, Utf8.decode_encode] at htext
    exact text_inj hother h (String.toList_inj.mp (Except.ok.inj htext))

end Cutscene.Json
