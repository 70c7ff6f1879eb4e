import CallAtlas.Graph.DependencyGraph
import CallAtlas.Proofs.Graph.Sets
import Mathlib.Data.List.Induction

/-!
# Dependency graphs under construction

A dependency graph is made by mentioning names and dependencies in any order. A name keeps the kind of
its first definition, wherever the references to it stand; without a definition it is a reference.
-/

namespace CallAtlas.Graph

/-- An addition to a dependency graph. -/
inductive Mention where
  | node (name : String) (kind : NameKind)
  | edge (source target : String)
deriving DecidableEq, Repr

namespace Mention

/-- The kind of a name, if this is a definition of the name. -/
def definition? (name : String) : Mention → Option NameKind
  | node n kind => if n = name ∧ kind ≠ .referenced then some kind else none
  | edge _ _ => none

theorem definition?_ne_referenced (name : String) (m : Mention) :
    m.definition? name ≠ some .referenced := by
  cases m with
  | node n kind =>
    rw [definition?]
    split
    · rename_i h
      exact fun heq => h.2 (Option.some.inj heq)
    · exact nofun
  | edge _ _ => exact nofun

theorem definition?_eq_some_iff {m : Mention} {name : String} {kind : NameKind} :
    m.definition? name = some kind ↔ m = .node name kind ∧ kind ≠ .referenced := by
  cases m with
  | node n k =>
    simp only [definition?, Option.ite_none_right_eq_some, Option.some.injEq,
      node.injEq]
    constructor
    · rintro ⟨⟨rfl, hk⟩, rfl⟩
      exact ⟨⟨rfl, rfl⟩, hk⟩
    · rintro ⟨⟨rfl, rfl⟩, hk⟩
      exact ⟨⟨rfl, hk⟩, rfl⟩
  | edge _ _ => simp [definition?]

/-- Whether a name is added. -/
def names (name : String) : Mention → Bool
  | node n _ => n = name
  | edge source target => source = name ∨ target = name

theorem names_of_definition? {name : String} {m : Mention} (h : m.definition? name ≠ none) :
    m.names name = true := by
  cases m with
  | node n kind =>
    rw [definition?] at h
    split at h
    · rename_i hn
      simp [names, hn.1]
    · exact absurd rfl h
  | edge source target => exact absurd rfl h

theorem names_iff {name : String} {m : Mention} : m.names name = true ↔
    (∃ kind, m = .node name kind) ∨ ∃ other, m = .edge name other ∨ m = .edge other name := by
  cases m with
  | node n kind => simp [names]
  | edge source target => simp [names, exists_or]

end Mention

namespace DependencyGraph

/-- The graph after an addition. -/
def add (g : DependencyGraph) : Mention → DependencyGraph
  | .node name kind => g.addNode name kind
  | .edge source target => g.addEdge source target

/-- The graph after some additions, the first one first. -/
def build (steps : List Mention) : DependencyGraph := steps.foldl add empty

theorem build_concat (steps : List Mention) (m : Mention) :
    build (steps ++ [m]) = (build steps).add m := by
  simp [build, List.foldl_append]

/-! ## One addition -/

theorem mem_nodes_iff (g : DependencyGraph) (name : String) :
    name ∈ g.nodes ↔ g.kindOf? name ≠ none := by
  rw [kindOf?, Std.ExtTreeMap.mem_iff_isSome_getElem?, Option.isSome_iff_ne_none]

/-- Only a name that is new or a mere reference takes a kind. -/
theorem kindOf?_addNode (g : DependencyGraph) (name n : String) (kind : NameKind) :
    (g.addNode name kind).kindOf? n =
      if name = n ∧ (g.kindOf? n = none ∨ g.kindOf? n = some .referenced) then some kind
      else g.kindOf? n := by
  have hinsert : (kindOf? { g with nodes := g.nodes.insert name kind } n) =
      if name = n then some kind else g.kindOf? n := by
    simp [kindOf?, Std.ExtTreeMap.getElem?_insert]
  by_cases hn : name = n
  · subst hn
    rw [addNode]
    split
    · rename_i hk
      rw [hinsert, if_pos rfl, if_pos ⟨rfl, .inl hk⟩]
    · rename_i hk
      rw [hinsert, if_pos rfl, if_pos ⟨rfl, .inr hk⟩]
    · rename_i k hreferenced hk
      have hdefined : ¬ (some k = none ∨ some k = some NameKind.referenced) := by
        rintro (h | h)
        · cases h
        · exact hreferenced (Option.some.inj h)
      rw [hk, if_neg fun h => hdefined h.2]
  · rw [if_neg fun h => hn h.1, addNode]
    split
    · rw [hinsert, if_neg hn]
    · rw [hinsert, if_neg hn]
    · rfl

theorem edges_addNode (g : DependencyGraph) (name : String) (kind : NameKind) :
    (g.addNode name kind).edges = g.edges := by
  rw [addNode]
  split <;> rfl

theorem kindOf?_addEdge (g : DependencyGraph) (source target n : String) :
    (g.addEdge source target).kindOf? n =
      if (source = n ∨ target = n) ∧ g.kindOf? n = none then some .referenced
      else g.kindOf? n := by
  have hnodes : (g.addEdge source target).kindOf? n =
      ((g.addNode source .referenced).addNode target .referenced).kindOf? n := rfl
  rw [hnodes, kindOf?_addNode, kindOf?_addNode]
  cases hk : g.kindOf? n with
  | none =>
    by_cases hs : source = n <;> simp [hs]
  | some kind =>
    cases kind <;> simp

theorem mem_edges_addEdge (g : DependencyGraph) (source target : String) (e : Edge) :
    e ∈ (g.addEdge source target).edges ↔ (⟨source, target⟩ : Edge) = e ∨ e ∈ g.edges := by
  rw [addEdge]
  simp only [edges_addNode, EdgeSet.mem_insert]

theorem mem_nodes_add {g : DependencyGraph} {n : String} (h : n ∈ g.nodes) (m : Mention) :
    n ∈ (g.add m).nodes := by
  rw [mem_nodes_iff] at h ⊢
  cases m with
  | node name kind =>
    rw [add, kindOf?_addNode]
    split
    · exact Option.some_ne_none kind
    · exact h
  | edge source target => rwa [add, kindOf?_addEdge, if_neg fun hnone => h hnone.2]

/-- A definition outlives every addition. -/
theorem kindOf?_add_of_defined {g : DependencyGraph} {n : String} {kind : NameKind}
    (hkind : kind ≠ .referenced) (h : g.kindOf? n = some kind) (m : Mention) :
    (g.add m).kindOf? n = some kind := by
  cases m with
  | node name k =>
    rw [add, kindOf?_addNode, if_neg, h]
    rintro ⟨-, hnew | hreferenced⟩
    · rw [h] at hnew
      cases hnew
    · rw [h] at hreferenced
      exact hkind (Option.some.inj hreferenced)
  | edge source target =>
    rw [add, kindOf?_addEdge, if_neg, h]
    rintro ⟨-, hnew⟩
    rw [h] at hnew
    cases hnew

/-! ## What a sequence of additions makes -/

theorem mem_edges_build (steps : List Mention) (e : Edge) :
    e ∈ (build steps).edges ↔ .edge e.source e.target ∈ steps := by
  induction steps using List.reverseRecOn with
  | nil => simp [build, empty]
  | append_singleton steps m ih =>
    rw [build_concat, List.mem_append, List.mem_singleton, ← ih]
    cases m with
    | node name kind =>
      rw [add, edges_addNode, or_iff_left (by simp)]
    | edge source target =>
      rw [add, mem_edges_addEdge, or_comm]
      simp only [Mention.edge.injEq]
      constructor
      · rintro (h | rfl)
        · exact .inl h
        · exact .inr ⟨rfl, rfl⟩
      · rintro (h | ⟨rfl, rfl⟩)
        · exact .inl h
        · exact .inr rfl

/-- The kind that the first definition gives a name. -/
def definedKind (steps : List Mention) (n : String) : Option NameKind :=
  steps.findSome? (·.definition? n)

theorem definedKind_ne_referenced (steps : List Mention) (n : String) :
    definedKind steps n ≠ some .referenced := by
  intro h
  obtain ⟨m, -, hm⟩ := List.exists_of_findSome?_eq_some h
  exact m.definition?_ne_referenced n hm

/-- A name has the kind of its first definition. Without one it is a reference, if it is there at all. -/
theorem kindOf?_build (steps : List Mention) (n : String) :
    (build steps).kindOf? n = (definedKind steps n).or
      (if steps.any (·.names n) then some .referenced else none) := by
  induction steps using List.reverseRecOn with
  | nil => simp [build, empty, kindOf?, definedKind]
  | append_singleton steps m ih =>
    have hdefined := definedKind_ne_referenced steps n
    have hconcat : definedKind (steps ++ [m]) n = (definedKind steps n).or (m.definition? n) := by
      rw [definedKind, List.findSome?_append, List.findSome?_singleton]
      rfl
    have hnames : (steps ++ [m]).any (·.names n) = (steps.any (·.names n) || m.names n) := by
      simp
    rw [build_concat, hconcat, hnames]
    generalize definedKind steps n = defined at ih hdefined
    generalize steps.any (·.names n) = named at ih
    cases m with
    | node name kind =>
      rw [add, kindOf?_addNode, ih, Mention.definition?, Mention.names]
      by_cases hn : name = n
      · cases defined with
        | some k => simp [hdefined]
        | none =>
          -- a reference that was there before gives way, and one that is added changes nothing
          by_cases hk : kind = .referenced <;> cases named <;> simp [hn, hk]
      · simp [hn]
    | edge source target =>
      rw [add, kindOf?_addEdge, ih, Mention.definition?, Mention.names]
      by_cases hn : source = n ∨ target = n
      · cases defined with
        | some k => simp
        | none => cases named <;> simp [hn]
      · simp [hn]

/-- A reference is a name without a definition. -/
theorem kindOf?_build_eq_referenced_iff (steps : List Mention) (n : String) :
    (build steps).kindOf? n = some .referenced ↔
      n ∈ (build steps).nodes ∧ definedKind steps n = none := by
  rw [mem_nodes_iff, kindOf?_build]
  have hdefined := definedKind_ne_referenced steps n
  cases h : definedKind steps n with
  | some kind =>
    rw [h] at hdefined
    simpa using hdefined
  | none => cases steps.any (·.names n) <;> simp

theorem mem_nodes_build (steps : List Mention) (n : String) :
    n ∈ (build steps).nodes ↔ ∃ m ∈ steps, m.names n = true := by
  rw [mem_nodes_iff, kindOf?_build, ← List.any_eq_true]
  by_cases hnamed : steps.any (·.names n) = true
  · cases definedKind steps n <;> simp [hnamed]
  · have hundefined : definedKind steps n = none := by
      refine List.findSome?_eq_none_iff.2 fun m hm => ?_
      by_contra hdefined
      exact hnamed (List.any_eq_true.2 ⟨m, hm, Mention.names_of_definition? hdefined⟩)
    simp [hnamed, hundefined]

/-! ## Kinds do not depend on where the references stand -/

/-- A name is added by itself or as an end of a dependency. -/
def Mentioned (steps : List Mention) (n : String) : Prop :=
  (∃ kind, .node n kind ∈ steps) ∨ ∃ other, .edge n other ∈ steps ∨ .edge other n ∈ steps

/-- Some addition defines a name in some way, and none before it defines the name. -/
def FirstDefined (steps : List Mention) (n : String) (kind : NameKind) : Prop :=
  kind ≠ .referenced ∧ ∃ before after, steps = before ++ .node n kind :: after ∧
    ∀ k, k ≠ .referenced → .node n k ∉ before

theorem mem_nodes_build_iff_mentioned (steps : List Mention) (n : String) :
    n ∈ (build steps).nodes ↔ Mentioned steps n := by
  rw [mem_nodes_build, Mentioned]
  constructor
  · rintro ⟨m, hm, hnames⟩
    rcases Mention.names_iff.1 hnames with ⟨kind, rfl⟩ | ⟨other, rfl | rfl⟩
    · exact .inl ⟨kind, hm⟩
    · exact .inr ⟨other, .inl hm⟩
    · exact .inr ⟨other, .inr hm⟩
  · rintro (⟨kind, hm⟩ | ⟨other, hm | hm⟩)
    · exact ⟨_, hm, Mention.names_iff.2 (.inl ⟨kind, rfl⟩)⟩
    · exact ⟨_, hm, Mention.names_iff.2 (.inr ⟨other, .inl rfl⟩)⟩
    · exact ⟨_, hm, Mention.names_iff.2 (.inr ⟨other, .inr rfl⟩)⟩

theorem ends_mem_build (steps : List Mention) {e : Edge} (he : e ∈ (build steps).edges) :
    e.source ∈ (build steps).nodes ∧ e.target ∈ (build steps).nodes := by
  have hedge := (mem_edges_build steps e).1 he
  rw [mem_nodes_build_iff_mentioned, mem_nodes_build_iff_mentioned]
  exact ⟨.inr ⟨e.target, .inl hedge⟩, .inr ⟨e.source, .inr hedge⟩⟩

theorem definedKind_eq_none_iff (steps : List Mention) (n : String) :
    definedKind steps n = none ↔ ∀ k, k ≠ .referenced → .node n k ∉ steps := by
  rw [definedKind, List.findSome?_eq_none_iff]
  constructor
  · intro h k hk hmem
    have hdefined : (Mention.node n k).definition? n = some k :=
      Mention.definition?_eq_some_iff.2 ⟨rfl, hk⟩
    rw [h _ hmem] at hdefined
    cases hdefined
  · intro h m hm
    refine Option.eq_none_iff_forall_ne_some.2 fun k hdefined => ?_
    obtain ⟨rfl, hk⟩ := Mention.definition?_eq_some_iff.1 hdefined
    exact h k hk hm

theorem definedKind_eq_some_iff_first (steps : List Mention) (n : String) (kind : NameKind) :
    definedKind steps n = some kind ↔ FirstDefined steps n kind := by
  rw [definedKind, List.findSome?_eq_some_iff, FirstDefined]
  constructor
  · rintro ⟨before, m, after, rfl, hdefined, hbefore⟩
    obtain ⟨rfl, hkind⟩ := Mention.definition?_eq_some_iff.1 hdefined
    have hnone : definedKind before n = none := List.findSome?_eq_none_iff.2 hbefore
    exact ⟨hkind, before, after, rfl, (definedKind_eq_none_iff before n).1 hnone⟩
  · rintro ⟨hkind, before, after, rfl, hbefore⟩
    have hnone := (definedKind_eq_none_iff before n).2 hbefore
    exact ⟨before, .node n kind, after, rfl, Mention.definition?_eq_some_iff.2 ⟨rfl, hkind⟩,
      List.findSome?_eq_none_iff.1 hnone⟩

/-- Whatever the order of the additions, both ends of each dependency are in the graph, and the
dependencies are those added. A name that is not mentioned has no kind; the others have the kind of
their first definition, and without a definition they are references. So no addition takes a name away
or changes what it is defined as. -/
theorem kinds_stable (steps : List Mention) :
    let g := build steps
    (∀ e ∈ g.edges, e.source ∈ g.nodes ∧ e.target ∈ g.nodes) ∧
    (∀ a b, g.containsEdge a b = true ↔ .edge a b ∈ steps) ∧
    (∀ n, g.kindOf? n = none ↔ ¬ Mentioned steps n) ∧
    (∀ n kind, kind ≠ .referenced → (g.kindOf? n = some kind ↔ FirstDefined steps n kind)) ∧
    (∀ n, g.kindOf? n = some .referenced ↔
      Mentioned steps n ∧ .node n .function ∉ steps ∧ .node n .classDefinition ∉ steps) ∧
    (∀ m n, n ∈ g.nodes → n ∈ (g.add m).nodes) ∧
    (∀ m n kind, kind ≠ .referenced → g.kindOf? n = some kind →
      (g.add m).kindOf? n = some kind) := by
  intro g
  have hmentioned := mem_nodes_build_iff_mentioned steps
  refine ⟨fun e he => ends_mem_build steps he, ?_, ?_, ?_, ?_, fun m n h => mem_nodes_add h m,
    fun m n kind hkind h => kindOf?_add_of_defined hkind h m⟩
  · intro a b
    rw [containsEdge, Std.ExtTreeSet.contains_iff_mem, mem_edges_build]
  · intro n
    rw [← hmentioned, mem_nodes_iff, not_not]
  · intro n kind hkind
    rw [← definedKind_eq_some_iff_first, kindOf?_build]
    cases definedKind steps n with
    | some k => rfl
    | none => simpa using fun _ _ _ => hkind.symm
  · intro n
    rw [kindOf?_build_eq_referenced_iff, hmentioned, definedKind_eq_none_iff]
    refine and_congr_right fun _ => ⟨fun h => ⟨h _ nofun, h _ nofun⟩, ?_⟩
    rintro ⟨hfunction, hclass⟩ (_ | _ | _) hk
    · exact hfunction
    · exact hclass
    · exact absurd rfl hk

end DependencyGraph

end CallAtlas.Graph
