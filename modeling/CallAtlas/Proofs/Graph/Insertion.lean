import CallAtlas.Graph.CallGraph
import CallAtlas.Proofs.Graph.Sets
import Mathlib.Data.List.Induction
import Mathlib.Tactic.Tauto

/-!
# Graphs under construction

A call graph is made by adding functions and calls in any order, some of which may be refused. It
keeps the calls three times: as edges, by caller and by callee. `Consistent` says that the three agree;
every insertion preserves it, so that each query answers what the edges say.
-/

namespace CallAtlas.Graph

/-- An addition to a call graph. -/
inductive Insertion where
  | node (name : String)
  | edge (caller callee : String)
deriving DecidableEq, Repr

namespace CallGraph

/-- The graph after an insertion. A refused call leaves it as it is. -/
def insert (g : CallGraph) : Insertion → CallGraph
  | .node name => g.addNode name
  | .edge caller callee => (g.addEdge caller callee).2

/-- The graph after some insertions, the first one first. -/
def build (steps : List Insertion) : CallGraph := steps.foldl insert empty

/-- A function of the graph calls another one. -/
def Calls (g : CallGraph) (a b : String) : Prop := ⟨a, b⟩ ∈ g.edges

/-- The two maps hold what the edges say and nothing else, and no edge leads out of the graph. A name
without calls has no entry, so that equal edges make equal maps. -/
structure Consistent (g : CallGraph) : Prop where
  ends : ∀ {a b : String}, g.Calls a b → a ∈ g.nodes ∧ b ∈ g.nodes
  mem_outgoing : ∀ a b, b ∈ g.outgoing.getD a ∅ ↔ g.Calls a b
  mem_incoming : ∀ a b, a ∈ g.incoming.getD b ∅ ↔ g.Calls a b
  outgoing_ne_empty : ∀ {a : String} {s : NameSet}, g.outgoing[a]? = some s → s ≠ ∅
  incoming_ne_empty : ∀ {b : String} {s : NameSet}, g.incoming[b]? = some s → s ≠ ∅

/-! ## Adding a member to the set of a name -/

theorem mem_getD_join (sets : Std.ExtTreeMap String NameSet) (name member a b : String) :
    b ∈ (join sets name member).getD a ∅ ↔
      (name = a ∧ member = b) ∨ b ∈ sets.getD a ∅ := by
  by_cases h : name = a
  · subst h
    simp [join]
  · simp [join, Std.ExtTreeMap.getD_insert, h]

theorem join_ne_empty {sets : Std.ExtTreeMap String NameSet} {name member : String}
    (h : ∀ {a : String} {s : NameSet}, sets[a]? = some s → s ≠ ∅) {a : String} {s : NameSet}
    (hs : (join sets name member)[a]? = some s) : s ≠ ∅ := by
  rw [join, Std.ExtTreeMap.getElem?_insert] at hs
  split at hs
  · cases hs
    exact Std.ExtTreeSet.insert_ne_empty
  · exact h hs

/-! ## What an insertion does -/

theorem addEdge_refused {g : CallGraph} {a b : String} (h : a ∉ g.nodes ∨ b ∉ g.nodes) :
    g.addEdge a b = (false, g) := by
  have hc : ¬ (g.nodes.contains a && g.nodes.contains b) = true := by
    simp only [Bool.and_eq_true, Std.ExtTreeSet.contains_iff_mem]
    tauto
  simp only [addEdge, if_neg hc]

theorem addEdge_present {g : CallGraph} {a b : String} (ha : a ∈ g.nodes) (hb : b ∈ g.nodes)
    (he : g.Calls a b) : g.addEdge a b = (true, g) := by
  have he' : (⟨a, b⟩ : Edge) ∈ g.edges := he
  simp [addEdge, ha, hb, he']

theorem addEdge_new {g : CallGraph} {a b : String} (ha : a ∈ g.nodes) (hb : b ∈ g.nodes)
    (he : ¬ g.Calls a b) :
    g.addEdge a b = (true,
      { g with
        edges := g.edges.insert ⟨a, b⟩
        outgoing := join g.outgoing a b
        incoming := join g.incoming b a }) := by
  have he' : (⟨a, b⟩ : Edge) ∉ g.edges := he
  simp [addEdge, ha, hb, he']

/-- An insertion of a call is refused for want of an end, finds the call present, or adds it. -/
theorem addEdge_cases (g : CallGraph) (a b : String) :
    ((a ∉ g.nodes ∨ b ∉ g.nodes) ∧ g.addEdge a b = (false, g)) ∨
    (a ∈ g.nodes ∧ b ∈ g.nodes ∧ g.Calls a b ∧ g.addEdge a b = (true, g)) ∨
    (a ∈ g.nodes ∧ b ∈ g.nodes ∧ ¬ g.Calls a b ∧ g.addEdge a b = (true,
      { g with
        edges := g.edges.insert ⟨a, b⟩
        outgoing := join g.outgoing a b
        incoming := join g.incoming b a })) := by
  by_cases ha : a ∈ g.nodes
  · by_cases hb : b ∈ g.nodes
    · by_cases he : g.Calls a b
      · exact .inr (.inl ⟨ha, hb, he, addEdge_present ha hb he⟩)
      · exact .inr (.inr ⟨ha, hb, he, addEdge_new ha hb he⟩)
    · exact .inl ⟨.inr hb, addEdge_refused (.inr hb)⟩
  · exact .inl ⟨.inl ha, addEdge_refused (.inl ha)⟩

theorem addEdge_fst_eq_false_iff (g : CallGraph) (a b : String) :
    (g.addEdge a b).1 = false ↔ a ∉ g.nodes ∨ b ∉ g.nodes := by
  rcases addEdge_cases g a b with ⟨h, he⟩ | ⟨ha, hb, -, he⟩ | ⟨ha, hb, -, he⟩ <;>
    rw [he] <;> simp_all

theorem nodes_addEdge (g : CallGraph) (a b : String) : (g.addEdge a b).2.nodes = g.nodes := by
  rcases addEdge_cases g a b with ⟨-, he⟩ | ⟨-, -, -, he⟩ | ⟨-, -, -, he⟩ <;> rw [he]

theorem calls_addEdge (g : CallGraph) (a b c d : String) :
    (g.addEdge a b).2.Calls c d ↔
      g.Calls c d ∨ (a = c ∧ b = d ∧ (g.addEdge a b).1 = true) := by
  rcases addEdge_cases g a b with ⟨-, he⟩ | ⟨-, -, hc, he⟩ | ⟨-, -, -, he⟩
  · simp [he]
  · rw [he]
    constructor
    · exact .inl
    · rintro (h | ⟨rfl, rfl, -⟩)
      · exact h
      · exact hc
  · simp only [he, Calls, EdgeSet.mem_insert, Edge.mk.injEq]
    tauto

/-! ## Every insertion keeps the graph consistent -/

theorem Consistent.empty : Consistent empty where
  ends h := absurd h Std.ExtTreeSet.not_mem_empty
  mem_outgoing a b := by simp [CallGraph.empty, Calls]
  mem_incoming a b := by simp [CallGraph.empty, Calls]
  outgoing_ne_empty h := by simp [CallGraph.empty] at h
  incoming_ne_empty h := by simp [CallGraph.empty] at h

theorem Consistent.addNode {g : CallGraph} (h : g.Consistent) (name : String) :
    (g.addNode name).Consistent where
  ends hc := by
    obtain ⟨ha, hb⟩ := h.ends hc
    simp [CallGraph.addNode, ha, hb]
  mem_outgoing := h.mem_outgoing
  mem_incoming := h.mem_incoming
  outgoing_ne_empty := h.outgoing_ne_empty
  incoming_ne_empty := h.incoming_ne_empty

theorem Consistent.addEdge {g : CallGraph} (h : g.Consistent) (a b : String) :
    (g.addEdge a b).2.Consistent := by
  rcases addEdge_cases g a b with ⟨-, he⟩ | ⟨-, -, -, he⟩ | ⟨ha, hb, -, he⟩
  · rw [he]; exact h
  · rw [he]; exact h
  · have hcalls := calls_addEdge g a b
    rw [he] at hcalls ⊢
    simp only [and_true] at hcalls
    constructor
    · intro c d hcd
      rcases (hcalls c d).1 hcd with hcd | ⟨rfl, rfl⟩
      · exact h.ends hcd
      · exact ⟨ha, hb⟩
    · intro c d
      rw [hcalls, mem_getD_join, h.mem_outgoing, or_comm]
    · intro c d
      rw [hcalls, mem_getD_join, h.mem_incoming, or_comm, and_comm (a := b = d)]
    · exact join_ne_empty h.outgoing_ne_empty
    · exact join_ne_empty h.incoming_ne_empty

theorem Consistent.insert {g : CallGraph} (h : g.Consistent) (i : Insertion) :
    (g.insert i).Consistent := by
  cases i with
  | node name => exact h.addNode name
  | edge caller callee => exact h.addEdge caller callee

theorem build_concat (steps : List Insertion) (i : Insertion) :
    build (steps ++ [i]) = (build steps).insert i := by
  simp [build, List.foldl_append]

theorem build_consistent (steps : List Insertion) : (build steps).Consistent := by
  induction steps using List.reverseRecOn with
  | nil => exact .empty
  | append_singleton steps i ih => rw [build_concat]; exact ih.insert i

/-! ## What a sequence of insertions makes -/

/-- Some insertion asks for the call when the graph made before has both ends. -/
def Accepted (steps : List Insertion) (a b : String) : Prop :=
  ∃ before after, steps = before ++ .edge a b :: after ∧
    ((build before).addEdge a b).1 = true

theorem accepted_concat (steps : List Insertion) (i : Insertion) (a b : String) :
    Accepted (steps ++ [i]) a b ↔
      Accepted steps a b ∨ (i = .edge a b ∧ ((build steps).addEdge a b).1 = true) := by
  constructor
  · rintro ⟨before, after, hs, ht⟩
    rcases List.eq_nil_or_concat after with rfl | ⟨after, j, rfl⟩
    · obtain ⟨rfl, hi⟩ := List.append_inj' hs rfl
      exact .inr ⟨by simpa using hi, ht⟩
    · rw [List.concat_eq_append, ← List.cons_append, ← List.append_assoc] at hs
      obtain ⟨rfl, -⟩ := List.append_inj' hs rfl
      exact .inl ⟨before, after, rfl, ht⟩
  · rintro (⟨before, after, rfl, ht⟩ | ⟨rfl, ht⟩)
    · exact ⟨before, after ++ [i], by simp, ht⟩
    · exact ⟨steps, [], rfl, ht⟩

theorem mem_nodes_build (steps : List Insertion) (n : String) :
    n ∈ (build steps).nodes ↔ .node n ∈ steps := by
  induction steps using List.reverseRecOn with
  | nil => simp [build, CallGraph.empty]
  | append_singleton steps i ih =>
    rw [build_concat]
    cases i with
    | node name =>
      simp only [CallGraph.insert, CallGraph.addNode, Std.ExtTreeSet.mem_insert,
        Std.compare_eq_iff_eq, ih, List.mem_append, List.mem_singleton, Insertion.node.injEq]
      rw [or_comm, eq_comm (a := name)]
    | edge a b => simp [CallGraph.insert, nodes_addEdge, ih]

theorem calls_build (steps : List Insertion) (a b : String) :
    (build steps).Calls a b ↔ Accepted steps a b := by
  induction steps using List.reverseRecOn with
  | nil => simp [build, CallGraph.empty, Calls, Accepted]
  | append_singleton steps i ih =>
    rw [build_concat, accepted_concat, ← ih]
    cases i with
    | node name => simp [CallGraph.insert, CallGraph.addNode, Calls]
    | edge c d =>
      simp only [CallGraph.insert, calls_addEdge, Insertion.edge.injEq]
      constructor
      · rintro (h | ⟨rfl, rfl, h⟩)
        · exact .inl h
        · exact .inr ⟨⟨rfl, rfl⟩, h⟩
      · rintro (h | ⟨⟨rfl, rfl⟩, h⟩)
        · exact .inl h
        · exact .inr ⟨rfl, rfl, h⟩

end CallGraph

end CallAtlas.Graph
