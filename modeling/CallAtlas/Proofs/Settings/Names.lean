import CallAtlas.Proofs.Toml.Groups

/-!
# Settings by name

`Name` lists what can be set, with the group, the place and the key of each name in a document and the
values that it can have. A value of the right type stands for such a value, and a table may stand for a
policy. The main statement is `ofMembers_eq_ok_iff`: a document is read as the settings in which each name
has the value that it is given, and its default where it is given none.
-/

namespace CallAtlas.Settings

open Toml

/-- What can be set. -/
inductive Name where
  | maxFileSize | maxDepth | duplicatePolicy
  | graphName | rankdir | nodeShape | nodeStyle | fillColor | classFillColor
  | format | includeSource
deriving DecidableEq, Repr

namespace Name

/-- The values that a name can have. -/
abbrev Value : Name → Type
  | maxFileSize | maxDepth => Nat
  | duplicatePolicy => DuplicatePolicy
  | graphName | rankdir | nodeShape | nodeStyle | fillColor | classFillColor | format => String
  | includeSource => Bool

/-- The group in which a name is kept. -/
def group : Name → String
  | maxFileSize | maxDepth | duplicatePolicy => "parsing"
  | graphName | rankdir | nodeShape | nodeStyle | fillColor | classFillColor => "graph"
  | format | includeSource => "output"

/-- The place of a name in its group. -/
def place : Name → Nat
  | maxFileSize | graphName | format => 0
  | maxDepth | rankdir | includeSource => 1
  | duplicatePolicy | nodeShape => 2
  | nodeStyle => 3
  | fillColor => 4
  | classFillColor => 5

/-- The key of a name in its group. -/
def key : Name → String
  | maxFileSize => "max_file_size"
  | maxDepth => "max_depth"
  | duplicatePolicy => "duplicate_policy"
  | graphName => "name"
  | rankdir => "rankdir"
  | nodeShape => "node_shape"
  | nodeStyle => "node_style"
  | fillColor => "fill_color"
  | classFillColor => "class_fill_color"
  | format => "format"
  | includeSource => "include_source"

/-- Whether a value of a document stands for a value of a name by its type: a size is a natural number,
and a policy is its name. -/
def Stands (v : Toml) : (n : Name) → n.Value → Prop
  | maxFileSize, size | maxDepth, size => v = .integer (size : Nat)
  | duplicatePolicy, policy => v = .string policy.name
  | graphName, text | rankdir, text | nodeShape, text | nodeStyle, text | fillColor, text
  | classFillColor, text | format, text => v = .string text
  | includeSource, truth => v = .boolean truth

/-- Whether a value of a document is a table that stands for a value of a name. Only a policy can be
given so, by an empty table or array under its name. -/
def StandsAsTable (v : Toml) : (n : Name) → n.Value → Prop
  | duplicatePolicy, policy =>
      ∃ origin inner, v = .table origin [(policy.name, inner)] ∧ inner.isEmptyGroup = true
  | _, _ => False

/-- Whether a value of a document counts as a value of a name, by its type or as a table. -/
def Accepts (v : Toml) (n : Name) (a : n.Value) : Prop := n.Stands v a ∨ n.StandsAsTable v a

end Name

/-- The value of a name. -/
def value (s : Settings) : (n : Name) → n.Value
  | .maxFileSize => s.parsing.maxFileSize
  | .maxDepth => s.parsing.maxDepth
  | .duplicatePolicy => s.parsing.duplicatePolicy
  | .graphName => s.graph.name
  | .rankdir => s.graph.rankdir
  | .nodeShape => s.graph.nodeShape
  | .nodeStyle => s.graph.nodeStyle
  | .fillColor => s.graph.fillColor
  | .classFillColor => s.graph.classFillColor
  | .format => s.output.format
  | .includeSource => s.output.includeSource

/-- The settings with given values. -/
def ofValues (values : (n : Name) → n.Value) : Settings where
  parsing :=
    { maxFileSize := values .maxFileSize
      maxDepth := values .maxDepth
      duplicatePolicy := values .duplicatePolicy }
  graph :=
    { name := values .graphName
      rankdir := values .rankdir
      nodeShape := values .nodeShape
      nodeStyle := values .nodeStyle
      fillColor := values .fillColor
      classFillColor := values .classFillColor }
  output := { format := values .format, includeSource := values .includeSource }

theorem value_ofValues (values : (n : Name) → n.Value) (n : Name) :
    (ofValues values).value n = values n := by
  cases n <;> rfl

theorem ofValues_value (s : Settings) : ofValues s.value = s := rfl

/-- Settings are known by the values of the names. -/
theorem ext_value {s t : Settings} (h : ∀ n, s.value n = t.value n) : s = t := by
  rw [← ofValues_value s, ← ofValues_value t, funext h]

/-- The value that a document gives to a name. -/
def given? (ms : Members) (n : Name) : Option Toml :=
  (ms.get? n.group).bind (field? n.place n.key)

/-- A name has the value that a document gives it, and its default where the document gives it none. -/
structure Follows (ms : Members) (s : Settings) (n : Name) : Prop where
  given : ∀ v, given? ms n = some v → n.Accepts v (s.value n)
  absent : given? ms n = none → s.value n = ({} : Settings).value n

/-! ## Reading one value -/

theorem bind_eq_ok_iff {α β : Type} {x : Except Failure α} {f : α → Except Failure β} {b : β} :
    x >>= f = .ok b ↔ ∃ a, x = .ok a ∧ f a = .ok b := by
  cases x with
  | error e => exact ⟨nofun, nofun⟩
  | ok a => exact ⟨fun h => ⟨a, rfl, h⟩, fun ⟨_, ha, h⟩ => Except.ok.inj ha ▸ h⟩

theorem readOr_eq_ok_iff {α : Type} {read : Toml → Option α} {fallback a : α} {key : String}
    {v : Option Toml} : readOr read fallback key v = .ok a ↔
      (∀ w, v = some w → read w = some a) ∧ (v = none → a = fallback) := by
  cases v with
  | none => simp [readOr, eq_comm]
  | some w => cases h : read w <;> simp [readOr, h]

theorem natural?_eq_some_iff {v : Toml} {n : Nat} :
    v.natural? = some n ↔ v = .integer (n : Nat) := by
  cases v <;> simp [natural?]
  omega

theorem string?_eq_some_iff {v : Toml} {s : String} : v.string? = some s ↔ v = .string s := by
  cases v <;> simp [string?]

theorem boolean?_eq_some_iff {v : Toml} {b : Bool} : v.boolean? = some b ↔ v = .boolean b := by
  cases v <;> simp [boolean?]

theorem ofName?_eq_some_iff {name : String} {p : DuplicatePolicy} :
    DuplicatePolicy.ofName? name = some p ↔ name = p.name := by
  constructor
  · intro h
    unfold DuplicatePolicy.ofName? at h
    split at h <;> cases h <;> rfl
  · rintro rfl
    exact p.ofName?_name

theorem policy?_eq_some_iff {v : Toml} {p : DuplicatePolicy} : v.policy? = some p ↔
    v = .string p.name ∨
      ∃ origin inner, v = .table origin [(p.name, inner)] ∧ inner.isEmptyGroup = true := by
  unfold policy?
  split
  case h_1 name => simp [ofName?_eq_some_iff]
  case h_2 origin key inner =>
    have htable : (∃ origin' inner', Toml.table origin [(key, inner)] =
        .table origin' [(p.name, inner')] ∧ inner'.isEmptyGroup = true) ↔
        key = p.name ∧ inner.isEmptyGroup = true := by
      constructor
      · rintro ⟨_, _, heq, hinner⟩
        cases heq
        exact ⟨rfl, hinner⟩
      · rintro ⟨rfl, hinner⟩
        exact ⟨origin, inner, rfl, hinner⟩
    rw [htable]
    cases h : inner.isEmptyGroup <;> simp [ofName?_eq_some_iff]
  case h_3 hstring htable =>
    refine iff_of_false nofun ?_
    rintro (rfl | ⟨origin, inner, rfl, -⟩)
    · exact hstring _ rfl
    · exact htable _ _ _ rfl

namespace Name

/-- Reads a value of a name. -/
def read : (n : Name) → Toml → Option n.Value
  | maxFileSize | maxDepth => natural?
  | duplicatePolicy => policy?
  | graphName | rankdir | nodeShape | nodeStyle | fillColor | classFillColor | format => string?
  | includeSource => boolean?

theorem read_eq_some_iff {v : Toml} {n : Name} {a : n.Value} : n.read v = some a ↔ n.Accepts v a := by
  cases n with
  | maxFileSize | maxDepth => exact natural?_eq_some_iff.trans (or_iff_left id).symm
  | duplicatePolicy => exact policy?_eq_some_iff
  | graphName | rankdir | nodeShape | nodeStyle | fillColor | classFillColor | format =>
    exact string?_eq_some_iff.trans (or_iff_left id).symm
  | includeSource => exact boolean?_eq_some_iff.trans (or_iff_left id).symm

/-- Reads what a group gives to a name. -/
def readIn (n : Name) (group : Toml) : Except Failure n.Value :=
  readOr n.read (({} : Settings).value n) n.key (group.field? n.place n.key)

theorem group_cases (n : Name) : n.group = "parsing" ∨ n.group = "graph" ∨ n.group = "output" := by
  cases n <;> simp [group]

end Name

/-! ## Reading a document -/

/-- A group that names nothing. -/
def noFields : Toml := .table .header []

/-- The group of a document in which a name is kept. -/
def groupOf (ms : Members) (n : Name) : Toml := (ms.get? n.group).getD noFields

theorem given?_eq (ms : Members) (n : Name) :
    given? ms n = (groupOf ms n).field? n.place n.key := by
  rw [given?, groupOf]
  cases ms.get? n.group <;> rfl

theorem follows_iff {ms : Members} {s : Settings} {n : Name} :
    Follows ms s n ↔ n.readIn (groupOf ms n) = .ok (s.value n) := by
  simp only [Name.readIn, ← given?_eq, readOr_eq_ok_iff, Name.read_eq_some_iff]
  exact ⟨fun h => ⟨h.given, h.absent⟩, fun h => ⟨h.1, h.2⟩⟩

theorem readGroupOr_eq_ok_iff {α : Type} {read : Toml → Except Failure α} {fallback a : α}
    {key : String} {v : Option Toml} (hnone : read noFields = .ok fallback) :
    readGroupOr read fallback key v = .ok a ↔
      (∀ group, v = some group → group.isGroup = true) ∧ read (v.getD noFields) = .ok a := by
  cases v with
  | none => simp [readGroupOr, hnone]
  | some v => cases h : v.isGroup <;> simp [readGroupOr, h]

theorem parsing_ofGroup_eq_ok_iff {s : Settings} {group : Toml} :
    ParsingSettings.ofGroup group = .ok s.parsing ↔
      ∀ n : Name, n.group = "parsing" → n.readIn group = .ok (s.value n) := by
  obtain ⟨p, graph, output⟩ := s
  simp only [ParsingSettings.ofGroup, bind_eq_ok_iff]
  constructor
  · rintro ⟨size, hsize, depth, hdepth, policy, hpolicy, hp⟩ n hn
    cases hp
    cases n <;> first | assumption | exact absurd hn (by decide)
  · intro h
    exact ⟨_, h .maxFileSize rfl, _, h .maxDepth rfl, _, h .duplicatePolicy rfl, rfl⟩

theorem graph_ofGroup_eq_ok_iff {s : Settings} {group : Toml} :
    GraphStyle.ofGroup group = .ok s.graph ↔
      ∀ n : Name, n.group = "graph" → n.readIn group = .ok (s.value n) := by
  obtain ⟨parsing, g, output⟩ := s
  simp only [GraphStyle.ofGroup, bind_eq_ok_iff]
  constructor
  · rintro ⟨name, hname, rankdir, hrankdir, shape, hshape, style, hstyle, fill, hfill, classFill,
      hclassFill, hg⟩ n hn
    cases hg
    cases n <;> first | assumption | exact absurd hn (by decide)
  · intro h
    exact ⟨_, h .graphName rfl, _, h .rankdir rfl, _, h .nodeShape rfl, _, h .nodeStyle rfl, _,
      h .fillColor rfl, _, h .classFillColor rfl, rfl⟩

theorem output_ofGroup_eq_ok_iff {s : Settings} {group : Toml} :
    OutputSettings.ofGroup group = .ok s.output ↔
      ∀ n : Name, n.group = "output" → n.readIn group = .ok (s.value n) := by
  obtain ⟨parsing, graph, o⟩ := s
  simp only [OutputSettings.ofGroup, bind_eq_ok_iff]
  constructor
  · rintro ⟨format, hformat, source, hsource, ho⟩ n hn
    cases ho
    cases n <;> first | assumption | exact absurd hn (by decide)
  · intro h
    exact ⟨_, h .format rfl, _, h .includeSource rfl, rfl⟩

/-- Every group of settings that is in a document can be one. -/
def HasGroups (ms : Members) : Prop :=
  ∀ (n : Name) (group : Toml), ms.get? n.group = some group → group.isGroup = true

/-- A document is read as settings if its groups can be groups and each name follows it. -/
theorem ofMembers_eq_ok_iff {ms : Members} {s : Settings} :
    ofMembers ms = .ok s ↔ HasGroups ms ∧ ∀ n, Follows ms s n := by
  have hparsing : ParsingSettings.ofGroup noFields = .ok {} := rfl
  have hgraph : GraphStyle.ofGroup noFields = .ok {} := rfl
  have houtput : OutputSettings.ofGroup noFields = .ok {} := rfl
  have hgroup {n : Name} {name : String} (h : n.group = name) :
      groupOf ms n = (ms.get? name).getD noFields := by rw [groupOf, h]
  simp only [ofMembers, bind_eq_ok_iff, readGroupOr_eq_ok_iff hparsing,
    readGroupOr_eq_ok_iff hgraph, readGroupOr_eq_ok_iff houtput, follows_iff]
  constructor
  · rintro ⟨p, ⟨hp, hparsing⟩, g, ⟨hg, hgraph⟩, o, ⟨ho, houtput⟩, hs⟩
    obtain rfl : s = ⟨p, g, o⟩ := (Except.ok.inj hs).symm
    refine ⟨fun n => ?_, fun n => ?_⟩
    · rcases n.group_cases with h | h | h <;> rw [h] <;> assumption
    · rcases n.group_cases with h | h | h <;> rw [hgroup h]
      · exact parsing_ofGroup_eq_ok_iff.1 hparsing n h
      · exact graph_ofGroup_eq_ok_iff.1 hgraph n h
      · exact output_ofGroup_eq_ok_iff.1 houtput n h
  · rintro ⟨hgroups, hvalues⟩
    refine ⟨s.parsing, ⟨hgroups .maxFileSize, parsing_ofGroup_eq_ok_iff.2 fun n h => ?_⟩,
      s.graph, ⟨hgroups .graphName, graph_ofGroup_eq_ok_iff.2 fun n h => ?_⟩,
      s.output, ⟨hgroups .format, output_ofGroup_eq_ok_iff.2 fun n h => ?_⟩, rfl⟩
    all_goals exact hgroup h ▸ hvalues n

/-! ## Documents of groups -/

variable {gs : List Group} {n : Name}

/-- The document of some groups. -/
def membersOf (gs : List Group) : Members := gs.map fun g => (g.name, .table .header g.members)

theorem get?_membersOf_iff {name : String} {v : Toml} (hnodup : (gs.map Group.name).Nodup) :
    (membersOf gs).get? name = some v ↔ ∃ g ∈ gs, g.name = name ∧ v = .table .header g.members := by
  have hkeys : ((membersOf gs).map Prod.fst).Nodup := by
    simpa [membersOf, Function.comp_def] using hnodup
  rw [get?_eq_some_iff hkeys]
  simp [membersOf, eq_comm]

/-- What a document of groups gives is in its groups, in whatever order they are and whatever else is
there. -/
theorem given?_membersOf_iff {v : Toml} (hnodup : (gs.map Group.name).Nodup) :
    given? (membersOf gs) n = some v ↔
      ∃ g ∈ gs, g.name = n.group ∧ ∃ f ∈ g.fields, f.key = n.key ∧ f.value = v := by
  have hfield (g : Group) : field? n.place n.key (.table .header g.members) = some v ↔
      ∃ f ∈ g.fields, f.key = n.key ∧ f.value = v := by
    have hkeys : (g.members.map Prod.fst).Nodup := by
      simpa [Group.members, Function.comp_def] using g.nodup
    rw [field?, get?_eq_some_iff hkeys]
    simp [Group.members]
  simp only [given?, Option.bind_eq_some_iff, get?_membersOf_iff hnodup]
  constructor
  · rintro ⟨_, ⟨g, hg, hname, rfl⟩, hv⟩
    exact ⟨g, hg, hname, (hfield g).1 hv⟩
  · rintro ⟨g, hg, hname, hv⟩
    exact ⟨_, ⟨g, hg, hname, rfl⟩, (hfield g).2 hv⟩

theorem hasGroups_membersOf (hnodup : (gs.map Group.name).Nodup) : HasGroups (membersOf gs) := by
  intro n group hgroup
  obtain ⟨g, -, -, rfl⟩ := (get?_membersOf_iff hnodup).1 hgroup
  rfl

end CallAtlas.Settings
