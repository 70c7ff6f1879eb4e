import CallAtlas.Proofs.Files

/-!
# What is left alone among the files

Making directories changes no file, since a directory is only made where nothing is. Writing a file
changes the entry of one place.
-/

namespace CallAtlas.Files

variable {files made files' : Files} {place : Place} {path : String} {content : ByteArray}

/-- Everything is as before, but there may be new directories. -/
structure AddsDirectories (files files' : Files) : Prop where
  kept : ∀ {path : String} {entry : Entry}, files.entries[path]? = some entry →
    files'.entries[path]? = some entry
  files : ∀ {path : String} {content : ByteArray}, files'.entries[path]? = some (.file content) →
    files.entries[path]? = some (.file content)

theorem AddsDirectories.refl (files : Files) : files.AddsDirectories files := ⟨id, id⟩

theorem AddsDirectories.trans (h : files.AddsDirectories made) (h' : made.AddsDirectories files') :
    files.AddsDirectories files' :=
  ⟨h'.kept ∘ h.kept, h.files ∘ h'.files⟩

/-- The file to which a path leads has been written, and nothing else. -/
structure OnlyWritten (files : Files) (path : String) (content : ByteArray) (files' : Files) :
    Prop where
  place : ∃ place found, files.find path = .ok (place, found) ∧
    ∀ other, other ≠ place.path → files'.entries[other]? = files.entries[other]?
  read : files'.read path = .ok content

theorem onlyWritten_of_write (h : files.write path content = .ok files') :
    files.OnlyWritten path content files' := by
  obtain ⟨written, hwrite, hread⟩ := Writable.exists_write ⟨content, files', h⟩ content
  obtain rfl := Except.ok.inj (hwrite.symm.trans h)
  obtain ⟨place, found, hfind, hfound, hdir⟩ := find_of_write h
  refine ⟨⟨place, found, hfind, fun other hother => ?_⟩, hread⟩
  obtain rfl := Except.ok.inj ((write_of_find hfind hfound hdir).symm.trans h)
  simp [withFile, Std.ExtTreeMap.getElem?_insert, Ne.symm hother]

/-- The files with a directory at a place. -/
def withDirectory (files : Files) (place : Place) : Files :=
  ⟨files.entries.insert (Place.path place) .directory⟩

theorem addsDirectories_withDirectory {name : String} (h : files.at? (name :: place) = none) :
    files.AddsDirectories (files.withDirectory (name :: place)) := by
  have hnone : files.entries[Place.path (name :: place)]? = none := h
  have hother {path : String} (hpath : Place.path (name :: place) ≠ path) :
      (files.withDirectory (name :: place)).entries[path]? = files.entries[path]? := by
    simp [withDirectory, Std.ExtTreeMap.getElem?_insert, hpath]
  constructor
  · intro path entry hentry
    rw [hother, hentry]
    rintro rfl
    rw [hnone] at hentry
    cases hentry
  · intro path content hfile
    rwa [hother] at hfile
    rintro rfl
    simp [withDirectory] at hfile

theorem addsDirectories_makeDirectory (files : Files) (names : List String) (dot : Bool) :
    files.AddsDirectories (files.makeDirectory names dot).2 := by
  unfold makeDirectory
  split
  case h_3 place hwalk =>
    split
    · exact .refl files
    · obtain ⟨-, hnone⟩ := leads_of_walk hwalk
      cases place with
      | nil => cases hnone
      | cons name above => exact addsDirectories_withDirectory hnone.symm
  all_goals exact .refl files

theorem addsDirectories_makeDirectories (files : Files) (dot : Bool) (names : List String) :
    files.AddsDirectories (files.makeDirectories dot names).2 := by
  induction names generalizing dot with
  | nil => exact .refl files
  | cons name above ih =>
    rw [makeDirectories]
    split
    · have habove := ih false
      split
      · rename_i made hmade
        rw [hmade] at habove
        exact habove.trans (made.addsDirectories_makeDirectory _ dot)
      · rename_i e made hmade
        rw [hmade] at habove
        exact habove
    · exact files.addsDirectories_makeDirectory _ dot

/-- Making directories changes nothing that is there, whether it succeeds or not. -/
theorem addsDirectories_ensureDirectory (files : Files) (path : String) :
    files.AddsDirectories (files.ensureDirectory path).2 := by
  unfold ensureDirectory
  split_ifs
  · exact .refl files
  · exact .refl files
  · exact .refl files
  · exact files.addsDirectories_makeDirectories _ _

theorem createDirectory_eq_ok_iff :
    files.createDirectory path = .ok made ↔ files.ensureDirectory path = (.ok (), made) := by
  rw [createDirectory]
  split <;> simp_all

end CallAtlas.Files
