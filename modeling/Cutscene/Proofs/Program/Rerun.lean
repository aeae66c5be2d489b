import Cutscene.Proofs.Program.Arguments
import Cutscene.Proofs.Program.Convert

namespace Cutscene.Convert

open Disk (Grows Keeps)
open Cutscene.Path (Ends Proper Renamed)

/-- There is nothing to do for the source. -/
def Settled (o : Options) (source : String) (d : Disk) : Prop :=
  Path.same (outputPath o source) source = true ∨ d.has (outputPath o source) = true

/-- The key of a file that is in the requested form by its name. If outputs have a place of their own,
one of that name is there. -/
def Product (o : Options) (d : Disk) (key : String) : Prop :=
  ∃ place name, key = Path.key (place ++ [name]) ∧ Renamed (extensionOf o.form) name ∧
    ∀ dest, o.dest = some dest → d.has (Path.join dest name) = true

def Adds (o : Options) (d later : Disk) : Prop :=
  ∀ file ∈ later.files, file.1 ∈ d.files.map Prod.fst ∨ Product o later file.1

variable {o : Options} {source path name : String} {disk d later last : Disk}
  {arguments : List String}

theorem Settled.grows (h : Settled o source d) (hgrows : Grows d later) : Settled o source later :=
  h.imp_right hgrows.has

theorem Product.grows {key : String} (h : Product o d key) (hgrows : Grows d later) :
    Product o later key := by
  obtain ⟨place, name, hkey, hname, hdest⟩ := h
  exact ⟨place, name, hkey, hname, fun dest hsome => hgrows.has (hdest dest hsome)⟩

theorem Adds.refl (o : Options) (d : Disk) : Adds o d d :=
  fun _ hfile => .inl (List.mem_map_of_mem hfile)

theorem Adds.trans (h : Adds o d later) (h' : Adds o later last) (hgrows : Grows later last) :
    Adds o d last := by
  intro file hfile
  rcases h' file hfile with hold | hnew
  · obtain ⟨old, hmem, heq⟩ := List.mem_map.mp hold
    exact heq ▸ (h old hmem).imp_right (Product.grows · hgrows)
  · exact .inr hnew

section Names

theorem proper_extension (form : ScriptForm) : Proper (extensionOf form) := by
  cases form <;> exact ⟨⟨by decide, by decide⟩, by decide, by decide⟩

theorem extension_point (form : ScriptForm) : '.' ∉ (extensionOf form).toList := by
  cases form <;> decide

theorem outputPath_beside (h : o.dest = none) :
    outputPath o source = Path.withExtension source (extensionOf o.form) := by
  simp only [outputPath, h]

theorem outputPath_within {dest : String} (h : o.dest = some dest)
    (hname : Path.fileName? (Path.withExtension source (extensionOf o.form)) = some name) :
    outputPath o source = Path.join dest name := by
  simp only [outputPath, h, hname]

theorem settled_of_ends (hname : Renamed (extensionOf o.form) name) (hends : Ends path name)
    (hdest : ∀ dest, o.dest = some dest → d.has (Path.join dest name) = true) :
    Settled o path d := by
  have hproper := proper_extension o.form
  have hsame := Path.withExtension_eq_self hname hproper (extension_point o.form) hends
  cases hsome : o.dest with
  | none =>
      refine .inl ?_
      rw [outputPath_beside hsome, hsame, Path.same, beq_self_eq_true]
  | some dest =>
      have hfound := hends.fileName? (hname.proper hproper)
      refine .inr ?_
      rw [outputPath_within hsome (hsame.symm ▸ hfound)]
      exact hdest dest hsome

theorem Product.settled {key : String} (h : Product o d key) {place : List String}
    (hstart : (Disk.start place).toList <+: key.toList) (root : String) :
    Settled o (Path.join root (String.ofList (key.toList.drop (Disk.start place).length))) d := by
  obtain ⟨outer, name, rfl, hname, hdest⟩ := h
  have hplain := (hname.proper (proper_extension o.form)).toPlain
  have hends := (Path.ends_key hplain outer).drop hplain (Disk.start_cases place) hstart
  exact settled_of_ends hname (hends.join root) hdest

end Names

section Steps

end Steps

section Runs

def converted : List UInt8 := Script.mark ++ [1, 0, 0, 0, 255, 0]

end Runs

end Cutscene.Convert
