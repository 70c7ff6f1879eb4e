import CallAtlas.Proofs.Settings.Names

/-!
# Settings are read back from their document

`groups` lists what a document of settings consists of. The main statement is `ofDocument_document`:
settings whose numbers fit into 64 bits are read back from the document that is written for them,
whatever their texts are.
-/

namespace CallAtlas.Settings

open Toml

/-- Whether the numbers fit into a document. -/
def Fits (s : Settings) : Prop := s.parsing.maxFileSize < 2 ^ 63 ∧ s.parsing.maxDepth < 2 ^ 63
deriving Decidable

variable {s : Settings}

theorem toDocument_of_fits (h : s.Fits) : s.toDocument = .ok s.document := by
  have h₁ : ¬ s.parsing.maxFileSize ≥ Nat.pow 2 63 := Nat.not_le.2 h.1
  have h₂ : ¬ s.parsing.maxDepth ≥ Nat.pow 2 63 := Nat.not_le.2 h.2
  rw [toDocument, if_neg h₁, if_neg h₂]

/-- Numbers that do not fit are a failure of settings. -/
theorem toDocument_of_not_fits (h : ¬ s.Fits) :
    ∃ problem, s.toDocument = .error (.settings problem) := by
  by_cases h₁ : s.parsing.maxFileSize ≥ Nat.pow 2 63
  · exact ⟨_, by rw [toDocument, if_pos h₁]⟩
  · have h₂ : s.parsing.maxDepth ≥ Nat.pow 2 63 := by
      refine Nat.not_lt.1 fun h₂ => h ⟨Nat.not_le.1 h₁, h₂⟩
    exact ⟨_, by rw [toDocument, if_neg h₁, if_pos h₂]⟩

/-! ## The groups of a document -/

/-- A field that is a text. -/
def textField (key : String) (value : String) (hkey : IsBare key) : Field where
  key := key
  text := quote value
  value := .string value
  bare := hkey
  reads := readsAs_quote value

/-- A field that is a number. -/
def numberField (key : String) (value : Nat) (hkey : IsBare key) (h : value < 2 ^ 63) : Field where
  key := key
  text := toString value
  value := .integer value
  bare := hkey
  reads := readsAs_toString h

/-- A field that is a truth value. -/
def truthField (key : String) (value : Bool) (hkey : IsBare key) : Field where
  key := key
  text := if value then "true" else "false"
  value := .boolean value
  bare := hkey
  reads := readsAs_boolean value

/-- The groups of settings, with their fields. -/
def groups (s : Settings) (h : s.Fits) : List Group :=
  [{ name := "parsing"
     fields := [numberField "max_file_size" s.parsing.maxFileSize (by decide) h.1,
       numberField "max_depth" s.parsing.maxDepth (by decide) h.2,
       textField "duplicate_policy" s.parsing.duplicatePolicy.name (by decide)]
     bare := by decide
     nodup := by simp [numberField, textField] },
   { name := "graph"
     fields := [textField "name" s.graph.name (by decide),
       textField "rankdir" s.graph.rankdir (by decide),
       textField "node_shape" s.graph.nodeShape (by decide),
       textField "node_style" s.graph.nodeStyle (by decide),
       textField "fill_color" s.graph.fillColor (by decide),
       textField "class_fill_color" s.graph.classFillColor (by decide)]
     bare := by decide
     nodup := by simp [textField] },
   { name := "output"
     fields := [textField "format" s.output.format (by decide),
       truthField "include_source" s.output.includeSource (by decide)]
     bare := by decide
     nodup := by simp [textField, truthField] }]

/-- The document is what is written for the groups. -/
theorem document_eq (h : s.Fits) : s.document = "\n".intercalate ((s.groups h).map Group.text) := rfl

theorem nodup_groups (h : s.Fits) : ((s.groups h).map Group.name).Nodup := by simp [groups]

theorem follows_groups (h : s.Fits) (n : Name) : Follows (membersOf (s.groups h)) s n := by
  constructor
  · intro v hv
    cases n <;> cases hv <;> exact .inl rfl
  · intro hnone
    cases n <;> cases hnone

/-- Settings are read back from the document that is written for them. -/
theorem ofDocument_document (h : s.Fits) : ofDocument s.document = .ok s := by
  rw [ofDocument, document_eq h, parse_groups _ (nodup_groups h)]
  exact ofMembers_eq_ok_iff.2 ⟨hasGroups_membersOf (nodup_groups h), follows_groups h⟩

end CallAtlas.Settings
