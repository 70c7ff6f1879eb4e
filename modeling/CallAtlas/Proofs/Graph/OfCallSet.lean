import CallAtlas.Proofs.Graph.CallSets
import CallAtlas.Proofs.Graph.Insertion

/-!
# The graph of a call set

The graph of a call set has the functions of the set for nodes and the calls between them for edges. It
is built from all nodes first and then the edges, so that no call is refused for want of a function that
comes later.
-/

namespace CallAtlas.Graph

namespace CallSet

/-- The calls of a call set, by callers and then by callees in ascending order. -/
def edges (c : CallSet) : List Edge :=
  c.toList.flatMap fun (caller, callees) => callees.toList.map fun callee => ⟨caller, callee⟩

theorem mem_edges {c : CallSet} {a b : String} :
    ⟨a, b⟩ ∈ c.edges ↔ ∃ callees, c.callees? a = some callees ∧ b ∈ callees := by
  simp only [edges, toList, callees?, List.mem_flatMap, List.mem_map, Edge.mk.injEq, Prod.exists,
    Std.ExtTreeMap.mem_toList_iff_getElem?_eq_some, Std.ExtTreeSet.mem_toList]
  constructor
  · rintro ⟨_, callees, hcallees, _, hb, rfl, rfl⟩
    exact ⟨callees, hcallees, hb⟩
  · rintro ⟨callees, hcallees, hb⟩
    exact ⟨a, callees, hcallees, b, hb, rfl, rfl⟩

end CallSet

namespace CallGraph

/-- The steps that add some nodes and then some edges. -/
def insertions (names : List String) (edges : List Edge) : List Insertion :=
  names.map .node ++ edges.map fun e => .edge e.source e.target

theorem ofCallSet_eq_build (c : CallSet) : ofCallSet c = build (insertions c.names c.edges) := by
  have hnodes : c.names.foldl addNode empty = (c.names.map Insertion.node).foldl insert empty := by
    rw [List.foldl_map]
    rfl
  rw [ofCallSet, hnodes, build, insertions, List.foldl_append, CallSet.edges, List.map_flatMap,
    List.foldl_flatMap]
  simp only [List.map_map, List.foldl_map, Function.comp_def]
  rfl

theorem mem_nodes_insertions {names : List String} {edges : List Edge} {n : String} :
    n ∈ (build (insertions names edges)).nodes ↔ n ∈ names := by
  simp [mem_nodes_build, insertions]

/-- With all nodes there from the beginning an edge is accepted if both ends are among them. -/
theorem calls_insertions {names : List String} {edges : List Edge} {a b : String} :
    (build (insertions names edges)).Calls a b ↔ ⟨a, b⟩ ∈ edges ∧ a ∈ names ∧ b ∈ names := by
  constructor
  · intro hcalls
    obtain ⟨ha, hb⟩ := (build_consistent _).ends hcalls
    obtain ⟨before, after, hsteps, -⟩ := (calls_build _ a b).1 hcalls
    have hmem : Insertion.edge a b ∈ insertions names edges := by
      rw [hsteps]
      exact List.mem_append_right before (.head after)
    have hedge : ⟨a, b⟩ ∈ edges := by
      simp only [insertions, List.mem_append, List.mem_map, reduceCtorEq, and_false, exists_false,
        false_or, Insertion.edge.injEq] at hmem
      obtain ⟨e, he, rfl, rfl⟩ := hmem
      exact he
    exact ⟨hedge, mem_nodes_insertions.1 ha, mem_nodes_insertions.1 hb⟩
  · rintro ⟨hedge, ha, hb⟩
    obtain ⟨before, after, rfl⟩ := List.append_of_mem hedge
    refine (calls_build _ a b).2 ⟨insertions names before,
      after.map fun e => .edge e.source e.target, ?_, ?_⟩
    · simp [insertions]
    · rw [← Bool.not_eq_false, addEdge_fst_eq_false_iff, mem_nodes_insertions, mem_nodes_insertions]
      tauto

theorem mem_nodes_ofCallSet {c : CallSet} {n : String} :
    n ∈ (ofCallSet c).nodes ↔ c.contains n = true := by
  rw [ofCallSet_eq_build, mem_nodes_insertions, CallSet.mem_names]

theorem calls_ofCallSet {c : CallSet} {a b : String} :
    (ofCallSet c).Calls a b ↔
      c.contains b = true ∧ ∃ callees, c.callees? a = some callees ∧ b ∈ callees := by
  rw [ofCallSet_eq_build, calls_insertions, CallSet.mem_edges, CallSet.mem_names, CallSet.mem_names]
  constructor
  · rintro ⟨hcallees, -, hb⟩
    exact ⟨hb, hcallees⟩
  · rintro ⟨hb, callees, hcallees, hmem⟩
    -- what has callees is a function of the set
    have ha : c.contains a = true := by
      rw [CallSet.contains, Std.ExtTreeMap.contains_iff_mem,
        Std.ExtTreeMap.mem_iff_isSome_getElem?]
      exact Option.isSome_iff_exists.2 ⟨callees, hcallees⟩
    exact ⟨⟨callees, hcallees, hmem⟩, ha, hb⟩

end CallGraph

end CallAtlas.Graph
