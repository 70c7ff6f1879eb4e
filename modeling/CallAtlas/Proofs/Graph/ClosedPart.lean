import CallAtlas.Proofs.Graph.OfCallSet
import CallAtlas.Proofs.Graph.Queries

/-!
# The closed part of a call set

A call set that comes from outside may give a function callees that are no functions of the set. Its
graph has the functions of the set and the calls between them: a callee from outside is no node and has
no edge. If there is none, the graph has all calls of the set, each of them once.
-/

namespace CallAtlas.Graph

namespace CallSet

/-- All callees are functions of the set. -/
def Closed (c : CallSet) : Prop :=
  ∀ caller callees, c.callees? caller = some callees → ∀ callee ∈ callees, callee ∈ c.names

/-- The calls between functions of the set. -/
def closedEdges (c : CallSet) : List Edge := c.edges.filter fun e => c.contains e.target

theorem edges_ascending (c : CallSet) : c.edges.Pairwise Edge.Before := by
  rw [edges, List.pairwise_flatMap]
  constructor
  · rintro ⟨caller, callees⟩ -
    rw [List.pairwise_map]
    exact (NameSet.ascending callees).imp fun h => .inr ⟨rfl, h⟩
  · refine List.Pairwise.imp ?_ Std.ExtTreeMap.ordered_keys_toList
    rintro ⟨caller, callees⟩ ⟨caller', callees'⟩ h e he f hf
    obtain ⟨callee, -, rfl⟩ := List.mem_map.1 he
    obtain ⟨callee', -, rfl⟩ := List.mem_map.1 hf
    exact .inl ((compare_eq_lt_iff _ _).1 h)

theorem edges_nodup (c : CallSet) : c.edges.Nodup := by
  refine c.edges_ascending.imp ?_
  rintro e _ (h | ⟨-, h⟩) rfl
  · exact String.lt_irrefl _ h
  · exact String.lt_irrefl _ h

theorem callCount_eq (c : CallSet) : c.callCount = c.edges.length := by
  have hsum : c.callCount = (c.toList.map fun entry => entry.2.size).sum := by
    rw [callCount, List.sum_eq_foldl, List.foldl_map]
  rw [hsum, edges, List.length_flatMap]
  simp only [List.length_map, Std.ExtTreeSet.length_toList]

theorem mem_closedEdges {c : CallSet} {a b : String} : ⟨a, b⟩ ∈ c.closedEdges ↔
    c.contains b = true ∧ ∃ callees, c.callees? a = some callees ∧ b ∈ callees := by
  rw [closedEdges, List.mem_filter, mem_edges, and_comm]

theorem Closed.closedEdges_eq {c : CallSet} (h : c.Closed) : c.closedEdges = c.edges := by
  rw [closedEdges, List.filter_eq_self]
  rintro ⟨a, b⟩ hedge
  obtain ⟨callees, hcallees, hb⟩ := mem_edges.1 hedge
  exact (c.mem_names b).1 (h a callees hcallees b hb)

end CallSet

namespace CallGraph

variable {c : CallSet}

theorem consistent_ofCallSet (c : CallSet) : (ofCallSet c).Consistent := by
  rw [ofCallSet_eq_build]
  exact build_consistent _

/-- A callee from outside the set is not in the graph at all. -/
theorem dangling_ofCallSet {n : String} (h : n ∉ c.names) : n ∉ (ofCallSet c).nodes ∧
    ∀ m, ¬ (ofCallSet c).Calls m n ∧ ¬ (ofCallSet c).Calls n m := by
  have hnode : n ∉ (ofCallSet c).nodes := by
    rwa [mem_nodes_ofCallSet, ← CallSet.mem_names]
  refine ⟨hnode, fun m => ⟨fun hcalls => ?_, fun hcalls => ?_⟩⟩
  · exact hnode ((consistent_ofCallSet c).ends hcalls).2
  · exact hnode ((consistent_ofCallSet c).ends hcalls).1

theorem callees_ofCallSet {caller : String} {callees : NameSet}
    (h : c.callees? caller = some callees) :
    (ofCallSet c).callees caller = callees.toList.filter c.contains := by
  refine eq_of_ascending (NameSet.ascending _) ((NameSet.ascending callees).filter _) fun n => ?_
  rw [(consistent_ofCallSet c).mem_callees, calls_ofCallSet, h, List.mem_filter,
    Std.ExtTreeSet.mem_toList, and_comm]
  simp only [Option.some.injEq, exists_eq_left']

theorem edgeCount_ofCallSet (c : CallSet) :
    (ofCallSet c).edgeCount = c.closedEdges.length := by
  have hperm : (ofCallSet c).edges.toList.Perm c.closedEdges := by
    have hnodup : c.closedEdges.Nodup := c.edges_nodup.filter _
    refine (List.perm_ext_iff_of_nodup (EdgeSet.nodup _) hnodup).2 ?_
    rintro ⟨a, b⟩
    rw [Std.ExtTreeSet.mem_toList, CallSet.mem_closedEdges]
    exact calls_ofCallSet
  rw [edgeCount, ← Std.ExtTreeSet.length_toList, hperm.length_eq]

/-- The graph of any call set is its closed part. The functions are the nodes, also those that call
nothing, and the calls from function to function are the edges; callees from outside leave no trace.
Where all callees are functions of the set, the graph has as many edges as there are calls, and lists
the callees of each function as the set does. -/
theorem ofCallSet_closed_part (c : CallSet) :
    (∀ n, n ∈ (ofCallSet c).nodes ↔ n ∈ c.names) ∧
    (∀ a b, ⟨a, b⟩ ∈ (ofCallSet c).edges ↔
      b ∈ c.names ∧ ∃ callees, c.callees? a = some callees ∧ b ∈ callees) ∧
    (∀ n, n ∉ c.names → n ∉ (ofCallSet c).nodes ∧
      ∀ m, ⟨m, n⟩ ∉ (ofCallSet c).edges ∧ ⟨n, m⟩ ∉ (ofCallSet c).edges) ∧
    (∀ caller callees, c.callees? caller = some callees →
      (ofCallSet c).callees caller = callees.toList.filter c.contains) ∧
    (ofCallSet c).edgeCount = c.closedEdges.length ∧
    (c.Closed → (ofCallSet c).edgeCount = c.callCount ∧
      ∀ caller callees, c.callees? caller = some callees →
        (ofCallSet c).callees caller = callees.toList) := by
  refine ⟨fun n => ?_, fun a b => ?_, fun n hn => dangling_ofCallSet hn,
    fun _ _ => callees_ofCallSet, edgeCount_ofCallSet c, fun hclosed => ⟨?_, ?_⟩⟩
  · rw [mem_nodes_ofCallSet, CallSet.mem_names]
  · rw [CallSet.mem_names]
    exact calls_ofCallSet
  · rw [edgeCount_ofCallSet, hclosed.closedEdges_eq, CallSet.callCount_eq]
  · intro caller callees hcallees
    rw [callees_ofCallSet hcallees, List.filter_eq_self]
    intro n hn
    exact (c.mem_names n).1 (hclosed caller callees hcallees n (Std.ExtTreeSet.mem_toList.1 hn))

end CallGraph

end CallAtlas.Graph
