import CallAtlas.Command.Host
import Mathlib.Data.List.Basic

/-!
# A file that has been written is there

`Leads` says where a path leads. Writing changes what is at one place and no directory on the way to
it, so the path leads to the same place as before, and `Writable.exists_write` says that reading it
gives the content that was written. A desk with these files reads a text back that it has written.
-/

namespace CallAtlas.Files

variable {files files' : Files} {p q place : Place} {names : List String} {found : Option Entry}
  {content : ByteArray} {path : String}

/-! ## Where a path leads -/

/-- Whether names lead from one place to another: all but the last through directories. -/
inductive Leads (files : Files) : Place → List String → Place → Prop
  | here {place : Place} : Leads files place [] place
  | up {name : String} {place p : Place} {rest : List String} : Leads files place rest p →
      Leads files (name :: place) (".." :: rest) p
  | last {name : String} {place : Place} : name.utf8ByteSize ≤ 255 → name ≠ ".." →
      Leads files place [name] (name :: place)
  | down {name : String} {place p : Place} {rest : List String} : name.utf8ByteSize ≤ 255 →
      name ≠ ".." → rest ≠ [] → files.at? (name :: place) = some .directory →
      Leads files (name :: place) rest p → Leads files place (name :: rest) p

theorem leads_of_walk (h : files.walk place names = .ok (p, found)) :
    Leads files place names p ∧ found = files.at? p := by
  fun_induction walk files place names with
  | case1 place =>
    obtain ⟨rfl, rfl⟩ := Prod.mk.inj (Except.ok.inj h)
    exact ⟨.here, rfl⟩
  | case4 rest _ above _ ih => exact ⟨.up (ih h).1, (ih h).2⟩
  | case5 place name hsize hname next =>
    obtain ⟨rfl, rfl⟩ := Prod.mk.inj (Except.ok.inj h)
    exact ⟨.last (Nat.not_lt.1 hsize) hname, rfl⟩
  | case8 place name rest hsize hname next hdir hrest ih =>
    exact ⟨.down (Nat.not_lt.1 hsize) hname hrest hdir (ih h).1, (ih h).2⟩
  | case2 | case3 | case6 | case7 => cases h

theorem Leads.walk_eq (h : Leads files place names p) :
    files.walk place names = .ok (p, files.at? p) := by
  induction h with
  | here => rfl
  | up _ ih =>
    unfold walk
    rw [if_neg (by decide), if_pos rfl]
    exact ih
  | last hsize hname =>
    unfold walk
    rw [if_neg (Nat.not_lt.2 hsize), if_neg hname]
  | @down name place p rest hsize hname hrest hdir _ ih =>
    unfold walk
    rw [if_neg (Nat.not_lt.2 hsize), if_neg hname]
    simp only [hdir]
    cases rest with
    | nil => exact absurd rfl hrest
    | cons => exact ih

/-- Where every directory stays, names lead to where they led before. -/
theorem Leads.mono (h : Leads files place names p)
    (hdirs : ∀ q, files.at? q = some .directory → files'.at? q = some .directory) :
    Leads files' place names p := by
  induction h with
  | here => exact .here
  | up _ ih => exact .up ih
  | last hsize hname => exact .last hsize hname
  | down hsize hname hrest hdir _ ih => exact .down hsize hname hrest (hdirs _ hdir) ih

/-! ## Files at places -/

/-- The files with a file at a place. -/
def withFile (files : Files) (p : Place) (content : ByteArray) : Files :=
  ⟨files.entries.insert (Place.path p) (.file content)⟩

theorem at?_withFile_self (hp : p ≠ []) :
    (files.withFile p content).at? p = some (.file content) := by
  cases p with
  | nil => exact absurd rfl hp
  | cons name above => simp [at?, withFile]

theorem at?_withFile_directory (hp : files.at? p ≠ some .directory)
    (hq : files.at? q = some .directory) :
    (files.withFile p content).at? q = some .directory := by
  cases q with
  | nil => rfl
  | cons name above =>
    -- The same path would have the same entry.
    have hpath : Place.path p ≠ Place.path (name :: above) := by
      intro heq
      cases p with
      | nil => exact hp rfl
      | cons first more =>
        have hsame : files.at? (first :: more) = files.at? (name :: above) :=
          congrArg (files.entries[·]?) heq
        exact hp (hsame.trans hq)
    simpa [at?, withFile, Std.ExtTreeMap.getElem?_insert, hpath] using hq

/-! ## Finding what is at a path -/

/-- Whether a text can be a path at all. -/
def IsPath (path : String) : Prop :=
  path.contains '\x00' = false ∧ (path.isEmpty || path.startsWith "/") = false ∧
    path.utf8ByteSize ≤ 4095

theorem locate_of_isPath (h : IsPath path) : files.locate path = files.walk [] (namesOf path) := by
  obtain ⟨hnul, hempty, hsize⟩ := h
  exact (if_neg (Bool.eq_false_iff.1 hnul)).trans
    ((if_neg (Bool.eq_false_iff.1 hempty)).trans (if_neg (Nat.not_lt.2 hsize)))

theorem isPath_of_locate (h : files.locate path = .ok (p, found)) : IsPath path := by
  unfold locate at h
  split at h
  · cases h
  · rename_i hnul
    split at h
    · cases h
    · rename_i hempty
      split at h
      · cases h
      · rename_i hsize
        exact ⟨Bool.eq_false_iff.2 hnul, Bool.eq_false_iff.2 hempty, Nat.not_lt.1 hsize⟩

theorem locate_of_find (h : files.find path = .ok (p, found)) :
    files.locate path = .ok (p, found) := by
  unfold find at h
  split at h
  · split_ifs at h
    exact h
  · exact h

/-- A path that does not say that it leads to a directory finds what is where it leads. -/
theorem find_eq_locate (hdir : namesDirectory path = false) :
    files.find path = files.locate path := by
  unfold find
  rw [hdir]
  split <;> rfl

theorem isPath_of_find (h : files.find path = .ok (p, found)) : IsPath path :=
  isPath_of_locate (locate_of_find h)

/-- A path that leads to a place finds what is there. -/
theorem leads_of_find (h : files.find path = .ok (p, found)) :
    Leads files [] (namesOf path) p ∧ found = files.at? p := by
  have hlocate := locate_of_find h
  rw [locate_of_isPath (isPath_of_locate hlocate)] at hlocate
  exact leads_of_walk hlocate

theorem find_of_leads (hpath : IsPath path) (hleads : Leads files [] (namesOf path) p)
    (hdir : namesDirectory path = false) : files.find path = .ok (p, files.at? p) := by
  rw [find_eq_locate hdir, locate_of_isPath hpath, hleads.walk_eq]

theorem find_file (hpath : IsPath path) (hleads : Leads files [] (namesOf path) p)
    (hdir : namesDirectory path = false) (hfile : files.at? p = some (.file content)) :
    files.find path = .ok (p, some (.file content)) := by
  rw [find_of_leads hpath hleads hdir, hfile]

/-- Writing succeeds when the path leads to no directory, whatever the content. -/
theorem write_of_find (hfind : files.find path = .ok (p, found)) (hfound : found ≠ some .directory)
    (hdir : namesDirectory path = false) :
    files.write path content = .ok (files.withFile p content) := by
  unfold write
  rw [locate_of_find hfind]
  split
  · rename_i h; cases h; exact absurd rfl hfound
  · rename_i h; cases h; simp only [hdir, Bool.false_eq_true, if_false]; rfl
  · rename_i h; cases h

theorem find_of_write (h : files.write path content = .ok files') :
    ∃ p found, files.find path = .ok (p, found) ∧ found ≠ some .directory ∧
      namesDirectory path = false := by
  unfold write at h
  split at h
  · cases h
  · rename_i p found hdir hlocate
    split_ifs at h with hname
    have hname := Bool.eq_false_iff.2 hname
    exact ⟨p, found, (find_eq_locate hname).trans hlocate, hdir, hname⟩
  · cases h

/-- Whether a file can be written at a path. -/
def Writable (files : Files) (path : String) : Prop :=
  ∃ content files', files.write path content = .ok files'

theorem writable_of_leads (hpath : IsPath path) (hleads : Leads files [] (namesOf path) p)
    (hdir : namesDirectory path = false) (hp : files.at? p ≠ some .directory) : files.Writable path :=
  ⟨.empty, _, write_of_find (find_of_leads hpath hleads hdir) hp hdir⟩

/-- At a path where a file can be written any content can be written, and it is there afterwards. -/
theorem Writable.exists_write (h : files.Writable path) (content : ByteArray) :
    ∃ files', files.write path content = .ok files' ∧ files'.read path = .ok content := by
  obtain ⟨_, _, hwrite⟩ := h
  obtain ⟨p, found, hfind, hfound, hdir⟩ := find_of_write hwrite
  obtain ⟨hleads, rfl⟩ := leads_of_find hfind
  have hp : p ≠ [] := fun hp => hfound (by rw [hp]; rfl)
  have hkept : Leads (files.withFile p content) [] (namesOf path) p :=
    hleads.mono fun _ => at?_withFile_directory hfound
  have hread := find_file (isPath_of_find hfind) hkept hdir (at?_withFile_self hp)
  refine ⟨_, write_of_find hfind hfound hdir, ?_⟩
  rw [read, hread]

end CallAtlas.Files

namespace CallAtlas.Host

variable {files : Files} {desk : Desk} {path text : String}

/-- The bytes of a text are that text. -/
theorem decode_toUTF8 (text : String) : decode text.toUTF8 = .ok text := by
  have hvalid : text.toUTF8.IsValidUTF8 := text.isValidUTF8
  have htext : String.fromUTF8? text.toUTF8 = some text := by
    rw [String.fromUTF8?, dif_pos hvalid]
    rfl
  rw [decode, htext]

theorem readText_of_read (desk : Desk) (h : files.read path = .ok text.toUTF8) :
    (readText path : StateM Desk _).run { desk with files } = (.ok text, { desk with files }) := by
  show ((files.read path).bind decode, ({ desk with files } : Desk)) = _
  rw [h]
  show (decode text.toUTF8, ({ desk with files } : Desk)) = _
  rw [decode_toUTF8]

theorem writeText_of_write (h : desk.files.write path text.toUTF8 = .ok files) :
    (writeText path text : StateM Desk _).run desk = (.ok (), { desk with files }) := by
  show Desk.changeFiles (fun files => files.write path text.toUTF8) desk = _
  rw [Desk.changeFiles, h]

end CallAtlas.Host
