import CallAtlas.Proofs.Toml.Lines
import CallAtlas.Settings.Document

/-!
# Documents of groups are read back

A document of groups has a header for each group and below it a line for each field, with an empty line
between groups. The main statement is `parse_groups`: such a document is read as one table for
each group, in their order, whose members are the fields in theirs.
-/

namespace CallAtlas.Toml

variable {d e : Draft} {rest : List Char}

/-- A field with what is written for its value. -/
structure Field where
  key : String
  text : String
  value : Toml
  bare : IsBare key
  reads : ReadsAs text.toList value

/-- A group of fields with different keys. -/
structure Group where
  name : String
  fields : List Field
  bare : IsBare name
  nodup : (fields.map Field.key).Nodup

namespace Group

/-- The group as it is written. -/
def text (g : Group) : String := Settings.writeGroup g.name (g.fields.map fun f => (f.key, f.text))

/-- The members of the table that the group is. -/
def members (g : Group) : Members := g.fields.map fun f => (f.key, f.value)

theorem text_toList (g : Group) : g.text.toList =
    headerLine g.name ++ g.fields.flatMap fun f => fieldLine f.key f.text.toList := by
  simp [text, Settings.writeGroup, headerLine, fieldLine, String.toList_join, List.flatMap_map]

end Group

theorem Draft.Reads.fields {fs : List Field}
    (hnodup : (d.members.map Prod.fst ++ fs.map Field.key).Nodup)
    (h : Reads { d with members := d.members ++ fs.map fun f => (f.key, f.value) } rest e) :
    d.Reads ((fs.flatMap fun f => fieldLine f.key f.text.toList) ++ rest) e := by
  induction fs generalizing d with
  | nil => simpa using h
  | cons f fs ih =>
    rw [List.flatMap_cons, List.append_assoc]
    have hnew : f.key ∉ d.members.map Prod.fst := fun hm =>
      (List.nodup_append.1 hnodup).2.2 f.key hm f.key (by simp) rfl
    refine .member f.bare hnew f.reads (ih ?_ ?_)
    · simpa using hnodup
    · simpa using h

/-- The draft in which a group has just been read. -/
def Draft.ofGroup (root : Members) (g : Group) : Draft :=
  { root, header := some ([], g.name), shared := false, members := g.members }

theorem get?_eq_none {root : Members} {name : String} (hnew : name ∉ root.map Prod.fst) :
    root.get? name = none := by
  have hfind : root.find? (·.1 == name) = none :=
    List.find?_eq_none.2 (List.any_eq_false.1 (any_key_eq_false hnew))
  rw [Members.get?, hfind, Option.map_none]

theorem get?_eq_some_iff {ms : Members} {key : String} {v : Toml}
    (hnodup : (ms.map Prod.fst).Nodup) : ms.get? key = some v ↔ (key, v) ∈ ms := by
  induction ms with
  | nil => simp [Members.get?]
  | cons m ms ih =>
    obtain ⟨first, w⟩ := m
    rw [List.map_cons, List.nodup_cons] at hnodup
    by_cases hkey : first = key
    · subst hkey
      have hnew : (first, v) ∉ ms := fun h => hnodup.1 (List.mem_map.2 ⟨_, h, rfl⟩)
      simp [Members.get?, hnew, eq_comm]
    · have hrest : Members.get? ((first, w) :: ms) key = Members.get? ms key := by
        simp [Members.get?, hkey]
      rw [hrest, ih hnodup.2]
      simp [Ne.symm hkey]

theorem opened_new {root : Members} {name : String} (hclose : d.close = some root)
    (hnew : name ∉ root.map Prod.fst) :
    d.opened [] name false =
      some { root, header := some ([], name), shared := false, members := [] } := by
  unfold Draft.opened
  simp only [hclose, Draft.look, get?_eq_none hnew, Option.bind_eq_bind, Option.bind_some,
    Option.pure_def]

theorem set_new {root : Members} {name : String} (hnew : name ∉ root.map Prod.fst) (value : Toml) :
    root.set name value = root ++ [(name, value)] := by
  rw [Members.set, any_key_eq_false hnew]
  rfl

/-- A group that has been read is closed as the last table. -/
theorem close_ofGroup {root : Members} {g : Group} (hnew : g.name ∉ root.map Prod.fst) :
    (Draft.ofGroup root g).close = some (root ++ [(g.name, .table .header g.members)]) := by
  rw [← set_new hnew]
  rfl

theorem Draft.Reads.group {root : Members} {g : Group} (hclose : d.close = some root)
    (hnew : g.name ∉ root.map Prod.fst) (h : (Draft.ofGroup root g).Reads rest e) :
    d.Reads (g.text.toList ++ rest) e := by
  rw [g.text_toList, List.append_assoc]
  refine .header g.bare (opened_new hclose hnew) (.fields ?_ ?_)
  · simpa using g.nodup
  · simpa [Draft.ofGroup, Group.members] using h

/-- Groups with an empty line between them are read one after the other. -/
theorem exists_reads_groups (gs : List Group) {root : Members} (hclose : d.close = some root)
    (hnodup : (root.map Prod.fst ++ gs.map Group.name).Nodup) :
    ∃ e, d.Reads ("\n".intercalate (gs.map Group.text)).toList e ∧
      e.close = some (root ++ gs.map fun g => (g.name, .table .header g.members)) := by
  -- `root` holds the groups that are closed; opening the next one closes the last.
  rw [String.toList_intercalate]
  induction gs generalizing d root with
  | nil => exact ⟨d, .nil d, by simpa using hclose⟩
  | cons g gs ih =>
    have hnew : g.name ∉ root.map Prod.fst := fun hm =>
      (List.nodup_append.1 hnodup).2.2 g.name hm g.name (by simp) rfl
    obtain ⟨e, hreads, hend⟩ := ih (close_ofGroup hnew) (by simpa using hnodup)
    cases gs with
    | nil =>
      refine ⟨.ofGroup root g, ?_, close_ofGroup hnew⟩
      simpa using Draft.Reads.group hclose hnew (.nil _)
    | cons g' gs =>
      refine ⟨e, ?_, by simpa using hend⟩
      simpa using Draft.Reads.group hclose hnew hreads.emptyLine

/-- A document of groups does not begin with a byte order mark. -/
theorem groups_ne_mark (gs : List Group) (rest : List Char) :
    ("\n".intercalate (gs.map Group.text)).toList ≠ '\uFEFF' :: rest := by
  rw [String.toList_intercalate]
  cases gs with
  | nil => simp
  | cons g gs => cases gs <;> simp [g.text_toList, headerLine]

/-- A document of groups is read as a table for each of them. -/
theorem parse_groups (gs : List Group) (hnodup : (gs.map Group.name).Nodup) :
    parse ("\n".intercalate (gs.map Group.text)) =
      some (gs.map fun g => (g.name, .table .header g.members)) := by
  have hclose : ({} : Draft).close = some [] := rfl
  obtain ⟨e, hreads, hend⟩ := exists_reads_groups gs hclose (by simpa using hnodup)
  unfold parse
  split
  · rename_i h; exact absurd h (groups_ne_mark gs _)
  · simp only [hreads _ (Nat.lt_succ_self _), Option.bind_some, hend, List.nil_append]

end CallAtlas.Toml
