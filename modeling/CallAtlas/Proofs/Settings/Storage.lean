import CallAtlas.Proofs.Files
import CallAtlas.Proofs.Settings.Document
import CallAtlas.Settings.Storage
import Mathlib

/-!
# Saved settings are loaded back

`load_save`: settings whose numbers fit into 64 bits are saved at every path where a file can be
written, and loading from there gives the same settings. Other settings are refused before anything is
written.
-/

namespace CallAtlas.Settings

variable {s : Settings} {path : String} {desk : Desk}

theorem save_of_fits (h : s.Fits) {files : Files}
    (hwrite : desk.files.write path s.document.toUTF8 = .ok files) :
    (save s path : StateM Desk _).run desk = (.ok (), { desk with files }) := by
  have hstep := Host.writeText_of_write hwrite
  unfold save
  rw [toDocument_of_fits h]
  simp only [StateT.run_bind, hstep]
  rfl

/-- Settings that do not fit into a document are not written. -/
theorem save_of_not_fits (h : ¬ s.Fits) :
    ∃ problem, (save s path : StateM Desk _).run desk = (.error (.settings problem), desk) := by
  obtain ⟨problem, hproblem⟩ := toDocument_of_not_fits h
  refine ⟨problem, ?_⟩
  unfold save
  rw [hproblem]
  rfl

theorem load_of_read {files : Files} (h : s.Fits)
    (hread : files.read path = .ok s.document.toUTF8) :
    (load path : StateM Desk _).run { desk with files } = (.ok s, { desk with files }) := by
  have hstep := Host.readText_of_read desk hread
  unfold load
  simp only [StateT.run_bind, hstep]
  show (ofDocument s.document, ({ desk with files } : Desk)) = _
  rw [ofDocument_document h]

/-- Settings that fit into a document are loaded back from where they have been saved; all others are
refused, and nothing changes. Nothing can be saved outside the working directory, since nothing is there:
no file can be written at a path that begins with a slash or leads above it. -/
theorem load_save (s : Settings) (path : String) (desk : Desk) :
    (s.Fits → desk.files.Writable path →
      ∃ desk', (save s path : StateM Desk _).run desk = (.ok (), desk') ∧
        (load path : StateM Desk _).run desk' = (.ok s, desk')) ∧
    (¬ s.Fits →
      ∃ problem, (save s path : StateM Desk _).run desk = (.error (.settings problem), desk)) := by
  constructor
  · intro hfits hpath
    obtain ⟨files, hwrite, hread⟩ := hpath.exists_write s.document.toUTF8
    exact ⟨{ desk with files }, save_of_fits hfits hwrite, load_of_read hfits hread⟩
  · exact save_of_not_fits

/-- A desk with a file under the name `s`. -/
def keptDesk : Desk := { files := Files.empty.withFile ["s"] "kept".toUTF8 }

theorem writable_keptDesk : keptDesk.files.Writable "s" := by
  have hpath : Files.IsPath "s" := ⟨by cbv, by cbv, by decide⟩
  have hnames : Files.namesOf "s" = ["s"] := by cbv
  have hleads : Files.Leads keptDesk.files [] (Files.namesOf "s") ["s"] := by
    rw [hnames]
    exact .last (by decide) (by decide)
  have hfile : keptDesk.files.at? ["s"] = some (.file "kept".toUTF8) :=
    Files.at?_withFile_self (List.cons_ne_nil "s" [])
  exact Files.writable_of_leads hpath hleads (by cbv) (by simp [hfile])

/-- Settings whose texts have quotation marks of both kinds, backslashes, tabs and line breaks. -/
def mixedMarks : Settings where
  parsing := { maxFileSize := 0, maxDepth := 2 ^ 63 - 1, duplicatePolicy := .reject }
  graph := { name := "\"\"\"\\'''\n\t\x01", rankdir := "\n'\"", nodeShape := "" }

/-- The same settings with a depth that does not fit. -/
def bottomless : Settings := { mixedMarks with parsing := { maxDepth := 2 ^ 63 } }

theorem load_save_mixedMarks :
    mixedMarks.Fits ∧ keptDesk.files.Writable "s" ∧ ¬ bottomless.Fits ∧
      (∃ desk', (save mixedMarks "s" : StateM Desk _).run keptDesk = (.ok (), desk') ∧
        (load "s" : StateM Desk _).run desk' = (.ok mixedMarks, desk')) ∧
      ∃ problem, (save bottomless "s" : StateM Desk _).run keptDesk =
        (.error (.settings problem), keptDesk) := by
  have hfits : mixedMarks.Fits := by decide
  have hlarge : ¬ bottomless.Fits := by decide
  exact ⟨hfits, writable_keptDesk, hlarge,
    (load_save mixedMarks "s" keptDesk).1 hfits writable_keptDesk,
    (load_save bottomless "s" keptDesk).2 hlarge⟩

end CallAtlas.Settings
