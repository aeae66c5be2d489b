import Cutscene.Program.Convert
import Cutscene.Proofs.Program.Disk
import Cutscene.Proofs.Script.Binary

namespace Cutscene.Convert

open Record

def ready (o : Options) (disk : Disk) : Except Disk.Failure Disk :=
  match o.dest with
  | none => .ok disk
  | some dest => disk.makeFolders dest

/-- The run gets to the source, and this is the disk then. -/
def Reaches (arguments : List String) (disk : Disk) (o : Options) (source : String)
    (before : Disk) : Prop :=
  ∃ start earlier later printed, commandLine.parse {} arguments = .ok o ∧
    ready o disk = .ok start ∧ sources o disk = earlier ++ source :: later ∧
      convertAll o 0 [] start earlier = ⟨0, printed, [], before⟩

/-- The source is not the output, and no output is there that has to stay. -/
structure Free (o : Options) (source : String) (d : Disk) : Prop where
  other : Path.same (outputPath o source) source = false
  room : d.has (outputPath o source) = false ∨ o.overwrite = true

/-- What becomes of a source. -/
inductive Attempt (o : Options) (source : String) (d : Disk) : Result → Prop
  | skip (h : Path.same (outputPath o source) source = true ∨
      d.has (outputPath o source) = true ∧ o.overwrite = false) : Attempt o source d .skipped
  | unread (error : OpenError) (hfree : Free o source d)
      (hopen : d.openScript source = .error error) :
      Attempt o source d (.failed ("loading cutscene " ++ source) error.chain d)
  | refused (s : Script) (failure : Disk.Failure) (hfree : Free o source d)
      (hopen : d.openScript source = .ok s)
      (hwrite : d.write (outputPath o source) { s with form := o.form }.write.1 = .error failure) :
      Attempt o source d (.failed ("writing " ++ outputPath o source) [failure.message] d)
  | torn (s : Script) (error : ScriptError) (later : Disk) (hfree : Free o source d)
      (hopen : d.openScript source = .ok s)
      (hwrite : d.write (outputPath o source) { s with form := o.form }.write.1 = .ok later)
      (herror : { s with form := o.form }.write.2 = some error) :
      Attempt o source d
        (.failed ("writing " ++ outputPath o source) (error.message :: error.causes) later)
  | whole (s : Script) (later : Disk) (hfree : Free o source d) (hopen : d.openScript source = .ok s)
      (hwrite : d.write (outputPath o source) { s with form := o.form }.write.1 = .ok later)
      (hnone : { s with form := o.form }.write.2 = none) : Attempt o source d (.converted later)

variable {o : Options} {source : String} {disk d later : Disk} {arguments : List String}

theorem attempt (o : Options) (source : String) (d : Disk) :
    Attempt o source d (convert o source d) := by
  rw [convert]
  by_cases hsame : Path.same (outputPath o source) source = true
  · rw [if_pos hsame]
    exact .skip (.inl hsame)
  · rw [if_neg hsame]
    by_cases hstays : (d.has (outputPath o source) && !o.overwrite) = true
    · rw [if_pos hstays]
      obtain ⟨hhas, hkeep⟩ := Bool.and_eq_true_iff.mp hstays
      exact .skip (.inr ⟨hhas, by simpa using hkeep⟩)
    · rw [if_neg hstays]
      have hfree : Free o source d := by
        refine ⟨eq_false_of_ne_true hsame, ?_⟩
        cases hhas : d.has (outputPath o source) with
        | false => exact .inl rfl
        | true => exact .inr (by simpa [hhas] using hstays)
      cases hopen : d.openScript source with
      | error error => exact .unread error hfree hopen
      | ok s =>
          simp only [save]
          cases hwrite : d.write (outputPath o source) { s with form := o.form }.write.1 with
          | error failure => exact .refused s failure hfree hopen hwrite
          | ok later =>
              cases herror : { s with form := o.form }.write.2 with
              | none => exact .whole s later hfree hopen hwrite herror
              | some error => exact .torn s error later hfree hopen hwrite herror

theorem execute_eq {start : Disk} (hsome : sources o disk ≠ []) (hready : ready o disk = .ok start) :
    execute o disk = convertAll o 0 [] start (sources o disk) := by
  rw [execute]
  split
  · exact absurd ‹_› hsome
  · rw [ready] at hready
    cases hdest : o.dest with
    | none =>
        rw [hdest] at hready
        obtain rfl := Except.ok.inj hready
        rfl
    | some dest =>
        simp only [hdest] at hready ⊢
        simp only [hready]

theorem convertAll_append {count : Nat} {printed shown : List String} {earlier : List String}
    {before : Disk} (h : convertAll o count printed d earlier = ⟨0, shown, [], before⟩)
    (rest : List String) : ∃ count' printed',
      convertAll o count printed d (earlier ++ rest) = convertAll o count' printed' before rest := by
  induction earlier generalizing count printed d with
  | nil =>
      obtain rfl : d = before := congrArg Outcome.disk h
      exact ⟨count, printed, rfl⟩
  | cons source earlier ih =>
      rw [convertAll] at h
      rw [List.cons_append, convertAll]
      cases hresult : convert o source d with
      | skipped =>
          simp only [hresult] at h ⊢
          exact ih h
      | converted later =>
          simp only [hresult] at h ⊢
          exact ih h
      | failed message causes later =>
          simp only [hresult] at h
          exact absurd (congrArg Outcome.exit h) Nat.one_ne_zero

theorem Reaches.run {before : Disk} (h : Reaches arguments disk o source before) :
    ∃ count printed later,
      run arguments disk = convertAll o count printed before (source :: later) := by
  obtain ⟨start, earlier, later, printed, hparse, hready, hsources, hbefore⟩ := h
  obtain ⟨count, printed', hrest⟩ := convertAll_append hbefore (source :: later)
  have hsome : sources o disk ≠ [] := by
    rw [hsources]
    simp
  refine ⟨count, printed', later, ?_⟩
  rw [Convert.run, hparse]
  simp only
  rw [execute_eq hsome hready, hsources, hrest]

section Failing

/-- The output can be opened, but what the source holds does not fit into a binary file. -/
structure Tears (o : Options) (source : String) (before : Disk) : Prop where
  form : o.form = .binary
  oversized : ∃ s, before.openScript source = .ok s ∧ ¬ Script.Fits s.instructions
  opened : ∃ empty, before.write (outputPath o source) [] = .ok empty

/-- The output holds what comes before the error, and nothing else is different. -/
def Torn (o : Options) (source : String) (before left : Disk) : Prop :=
  ∃ s bytes error place, before.openScript source = .ok s ∧
    Script.Cut s.instructions bytes error ∧ before.locate (outputPath o source) = .ok place ∧
      left = { before with files := before.files.insert (Path.key place) bytes }

theorem failed_cases {message : String} {causes : List String} {left : Disk}
    (h : convert o source d = .failed message causes left) :
    (Tears o source d → Torn o source d left) ∧ (¬ Tears o source d → left = d) := by
  have hattempt := attempt o source d
  rw [h] at hattempt
  cases hattempt with
  | unread error hfree hopen =>
      refine ⟨fun htears => ?_, fun _ => rfl⟩
      obtain ⟨s, hs, -⟩ := htears.oversized
      rw [hopen] at hs
      cases hs
  | refused s failure hfree hopen hwrite =>
      refine ⟨fun htears => ?_, fun _ => rfl⟩
      obtain ⟨empty, hempty⟩ := htears.opened
      obtain ⟨later, hlater⟩ := Disk.exists_write hempty { s with form := o.form }.write.1
      rw [hwrite] at hlater
      cases hlater
  | torn s error later hfree hopen hwrite herror =>
      have hopened := Disk.exists_write hwrite []
      cases hform : o.form with
      | text =>
          rw [hform] at herror
          cases herror
      | binary =>
          rw [hform] at herror hwrite
          obtain ⟨-, hwhole⟩ | ⟨hfits, bytes, cause, hcut, hbytes⟩ :=
            Script.write_cases s.instructions
          · rw [hwhole] at herror
            cases herror
          · have htears : Tears o source d := ⟨hform, ⟨s, hopen, hfits⟩, hopened⟩
            refine ⟨fun _ => ?_, fun hwhole => absurd htears hwhole⟩
            rw [hbytes] at hwrite
            obtain ⟨place, hlocate, -, -, rfl⟩ := Disk.write_eq_ok hwrite
            exact ⟨s, bytes, cause, place, hopen, hcut, hlocate, rfl⟩

/-- A source that cannot be converted ends the run. It leaves the files as they were before it, unless
its output is opened for it and has no room for its instructions or for one of their lists. -/
theorem failed_source_leaves {before left : Disk} {message : String} {causes : List String}
    (hreaches : Reaches arguments disk o source before)
    (hfails : convert o source before = .failed message causes left) :
    (run arguments disk).exit = 1 ∧ (run arguments disk).disk = left ∧
      (¬ Tears o source before → left = before) ∧
        (Tears o source before → Torn o source before left) := by
  obtain ⟨count, printed, later, hrun⟩ := hreaches.run
  obtain ⟨htorn, hwhole⟩ := failed_cases hfails
  rw [hrun, convertAll]
  simp only [hfails]
  exact ⟨rfl, rfl, hwhole, htorn⟩

def crowded : List UInt8 :=
  Utf8.encode ("Fin\nx".toList ++ (List.replicate 256 " 1".toList).flatten ++ ['\n'])

def crowdedDisk : Disk where
  files := [("a.dcut", Utf8.encode "old".toList), ("a.dream", crowded)]

def replacing : List String := ["--script", "a.dream", "--overwrite"]

/-- What was in the output before is lost. The record of the first instruction is there instead. -/
theorem failed_source_leaves_crowded :
    (run replacing crowdedDisk).exit = 1 ∧
      crowdedDisk.files.get? "a.dcut" = some (Utf8.encode "old".toList) ∧
        (run replacing crowdedDisk).disk.files.get? "a.dcut" =
          some (Script.mark ++ [2, 0, 0, 0, 255, 0]) := by
  have hreaches : Reaches replacing crowdedDisk { scripts := ["a.dream"], overwrite := true }
      "a.dream" crowdedDisk :=
    ⟨crowdedDisk, [], [], ["Converted 0 script(s)"], rfl, rfl, rfl, rfl⟩
  have hcut : (match convert { scripts := ["a.dream"], overwrite := true } "a.dream" crowdedDisk with
      | .failed _ _ left => left.files.get? "a.dcut"
      | _ => none) = some (Script.mark ++ [2, 0, 0, 0, 255, 0]) := by
    decide +kernel
  cases hfails : convert { scripts := ["a.dream"], overwrite := true } "a.dream" crowdedDisk with
  | skipped =>
      rw [hfails] at hcut
      cases hcut
  | converted later =>
      rw [hfails] at hcut
      cases hcut
  | failed message causes left =>
      rw [hfails] at hcut
      obtain ⟨hexit, hdisk, -, -⟩ := failed_source_leaves hreaches hfails
      exact ⟨hexit, rfl, by rw [hdisk]; exact hcut⟩

end Failing

end Cutscene.Convert
