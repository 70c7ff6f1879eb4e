import CallAtlas.Proofs.Graph.Insertion
import Mathlib.Algebra.BigOperators.Group.List.Basic
import Mathlib.Algebra.GroupWithZero.Nat
import Mathlib.Data.List.Nodup

/-!
# What the queries of a call graph answer

The queries read the two maps beside the edges. In a consistent graph they answer what the edges say:
callees and callers are the other ends of the edges of a name, in ascending order, and the degrees
count these edges. So all four fields of a graph under construction follow from its nodes and edges.
-/

namespace CallAtlas.Graph

namespace CallGraph

/-- The edges that lead out of a name, in ascending order. -/
def edgesFrom (g : CallGraph) (n : String) : List Edge :=
  g.edges.toList.filter (·.source == n)

/-- The edges that lead to a name, in ascending order. -/
def edgesTo (g : CallGraph) (n : String) : List Edge :=
  g.edges.toList.filter (·.target == n)

theorem mem_edgesFrom {g : CallGraph} {n : String} {e : Edge} :
    e ∈ g.edgesFrom n ↔ e ∈ g.edges ∧ e.source = n := by
  simp [edgesFrom]

theorem mem_edgesTo {g : CallGraph} {n : String} {e : Edge} :
    e ∈ g.edgesTo n ↔ e ∈ g.edges ∧ e.target = n := by
  simp [edgesTo]

theorem targets_ascending (g : CallGraph) (n : String) :
    ((g.edgesFrom n).map Edge.target).Pairwise (· < ·) := by
  rw [List.pairwise_map]
  refine ((EdgeSet.ascending g.edges).filter _).imp_of_mem ?_
  intro e f he hf h
  have hs : e.source = f.source := (mem_edgesFrom.1 he).2.trans (mem_edgesFrom.1 hf).2.symm
  rcases h with h | ⟨-, h⟩
  · exact absurd hs (String.ne_of_lt h)
  · exact h

theorem sources_ascending (g : CallGraph) (n : String) :
    ((g.edgesTo n).map Edge.source).Pairwise (· < ·) := by
  rw [List.pairwise_map]
  refine ((EdgeSet.ascending g.edges).filter _).imp_of_mem ?_
  intro e f he hf h
  have ht : e.target = f.target := (mem_edgesTo.1 he).2.trans (mem_edgesTo.1 hf).2.symm
  rcases h with h | ⟨-, h⟩
  · exact h
  · exact absurd ht (String.ne_of_lt h)

/-- Two ascending lists with the same members are the same. -/
theorem eq_of_ascending {l m : List String} (hl : l.Pairwise (· < ·)) (hm : m.Pairwise (· < ·))
    (h : ∀ n, n ∈ l ↔ n ∈ m) : l = m := by
  have hp : l.Perm m :=
    (List.perm_ext_iff_of_nodup (hl.imp String.ne_of_lt) (hm.imp String.ne_of_lt)).2 h
  refine hp.eq_of_pairwise ?_ hl hm
  intro a b _ _ hab hba
  exact absurd (String.lt_trans hab hba) (String.lt_irrefl a)

section Consistent

variable {g : CallGraph} (h : g.Consistent)

include h

theorem Consistent.callees_eq (n : String) :
    g.callees n = (g.edgesFrom n).map Edge.target := by
  refine eq_of_ascending (NameSet.ascending _) (g.targets_ascending n) ?_
  intro m
  rw [callees, Std.ExtTreeSet.mem_toList, h.mem_outgoing, List.mem_map]
  constructor
  · intro hc
    exact ⟨⟨n, m⟩, mem_edgesFrom.2 ⟨hc, rfl⟩, rfl⟩
  · rintro ⟨⟨a, b⟩, he, rfl⟩
    obtain ⟨hc, rfl⟩ := mem_edgesFrom.1 he
    exact hc

theorem Consistent.callers_eq (n : String) :
    g.callers n = (g.edgesTo n).map Edge.source := by
  refine eq_of_ascending (NameSet.ascending _) (g.sources_ascending n) ?_
  intro m
  rw [callers, Std.ExtTreeSet.mem_toList, h.mem_incoming, List.mem_map]
  constructor
  · intro hc
    exact ⟨⟨m, n⟩, mem_edgesTo.2 ⟨hc, rfl⟩, rfl⟩
  · rintro ⟨⟨a, b⟩, he, rfl⟩
    obtain ⟨hc, rfl⟩ := mem_edgesTo.1 he
    exact hc

theorem Consistent.mem_callees (a b : String) : b ∈ g.callees a ↔ g.Calls a b := by
  rw [callees, Std.ExtTreeSet.mem_toList, h.mem_outgoing]

theorem Consistent.containsEdge_iff (a b : String) :
    g.containsEdge a b = true ↔ g.Calls a b := by
  rw [containsEdge, Std.ExtTreeSet.contains_iff_mem, h.mem_outgoing]

theorem Consistent.outDegree_eq (n : String) : g.outDegree n = (g.edgesFrom n).length := by
  rw [outDegree, ← Std.ExtTreeSet.length_toList, ← callees, h.callees_eq, List.length_map]

theorem Consistent.inDegree_eq (n : String) : g.inDegree n = (g.edgesTo n).length := by
  rw [inDegree, ← Std.ExtTreeSet.length_toList, ← callers, h.callers_eq, List.length_map]

end Consistent

/-! ## The degrees add up to the number of edges -/

/-- If each edge is put down for one of some names, the names have all edges together. -/
theorem sum_length_filter (f : Edge → String) {names : List String} (hn : names.Nodup)
    {es : List Edge} (he : ∀ e ∈ es, f e ∈ names) :
    (names.map fun n => (es.filter (f · == n)).length).sum = es.length := by
  induction es with
  | nil => simp
  | cons e es ih =>
    -- one more edge adds one to the count of one name and nothing to the others
    have hone : (names.map fun n => if f e = n then 1 else 0).sum = 1 := by
      rw [List.sum_map_eq_nsmul_single (f e) _ (fun n hne _ => if_neg hne.symm),
        List.count_eq_one_of_mem hn (he e (by simp)), if_pos rfl, one_nsmul]
    have hsplit : ∀ n, ((e :: es).filter (f · == n)).length =
        (es.filter (f · == n)).length + if f e = n then 1 else 0 := by
      intro n
      rw [List.filter_cons]
      split <;> simp_all
    simp only [hsplit, List.sum_map_add, hone, List.length_cons]
    rw [ih fun d hd => he d (by simp [hd])]

theorem Consistent.sum_outDegree {g : CallGraph} (h : g.Consistent) :
    (g.nodes.toList.map g.outDegree).sum = g.edgeCount := by
  rw [edgeCount, ← Std.ExtTreeSet.length_toList]
  rw [show g.outDegree = fun n => (g.edgesFrom n).length from funext h.outDegree_eq]
  refine sum_length_filter Edge.source (NameSet.nodup _) ?_
  intro e he
  exact Std.ExtTreeSet.mem_toList.2 (h.ends (Std.ExtTreeSet.mem_toList.1 he)).1

theorem Consistent.sum_inDegree {g : CallGraph} (h : g.Consistent) :
    (g.nodes.toList.map g.inDegree).sum = g.edgeCount := by
  rw [edgeCount, ← Std.ExtTreeSet.length_toList]
  rw [show g.inDegree = fun n => (g.edgesTo n).length from funext h.inDegree_eq]
  refine sum_length_filter Edge.target (NameSet.nodup _) ?_
  intro e he
  exact Std.ExtTreeSet.mem_toList.2 (h.ends (Std.ExtTreeSet.mem_toList.1 he)).2

/-! ## Nodes and edges determine the graph -/

/-- Two maps without empty entries are the same if they give each name the same set. -/
theorem map_ext {s t : Std.ExtTreeMap String NameSet}
    (hs : ∀ {a : String} {x : NameSet}, s[a]? = some x → x ≠ ∅)
    (ht : ∀ {a : String} {x : NameSet}, t[a]? = some x → x ≠ ∅)
    (h : ∀ a b, b ∈ s.getD a ∅ ↔ b ∈ t.getD a ∅) : s = t := by
  refine Std.ExtTreeMap.ext_getElem? fun a => ?_
  -- equal sets leave open only that one map has an empty entry where the other has none
  have hset : s[a]?.getD ∅ = t[a]?.getD ∅ := by
    rw [← Std.ExtTreeMap.getD_eq_getD_getElem?, ← Std.ExtTreeMap.getD_eq_getD_getElem?]
    exact Std.ExtTreeSet.ext_mem fun b => h a b
  cases hx : s[a]? with
  | none =>
    cases hy : t[a]? with
    | none => rfl
    | some y =>
      rw [hx, hy] at hset
      exact absurd hset.symm (ht hy)
  | some x =>
    cases hy : t[a]? with
    | none =>
      rw [hx, hy] at hset
      exact absurd hset (hs hx)
    | some y =>
      rw [hx, hy] at hset
      exact congrArg some hset

theorem Consistent.ext {g k : CallGraph} (hg : g.Consistent) (hk : k.Consistent)
    (hn : g.nodes = k.nodes) (he : g.edges = k.edges) : g = k := by
  have hcalls : ∀ a b, g.Calls a b ↔ k.Calls a b := by
    intro a b
    rw [Calls, Calls, he]
  have ho : g.outgoing = k.outgoing := by
    refine map_ext hg.outgoing_ne_empty hk.outgoing_ne_empty fun a b => ?_
    rw [hg.mem_outgoing, hk.mem_outgoing, hcalls]
  have hi : g.incoming = k.incoming := by
    refine map_ext hg.incoming_ne_empty hk.incoming_ne_empty fun b a => ?_
    rw [hg.mem_incoming, hk.mem_incoming, hcalls]
  cases g
  cases k
  simp only at hn he ho hi
  simp only [hn, he, ho, hi]

/-- The four fields of a graph under construction stay in step. The nodes are the names added, the
edges the calls that were not refused; every query answers what the edges say; and nodes and edges
together determine the graph. -/
theorem fields_in_step (steps : List Insertion) :
    let g := build steps
    (∀ n, n ∈ g.nodes ↔ .node n ∈ steps) ∧
    (∀ a b, ⟨a, b⟩ ∈ g.edges ↔ ∃ before after, steps = before ++ .edge a b :: after ∧
      ((build before).addEdge a b).1 = true) ∧
    (∀ e ∈ g.edges, e.source ∈ g.nodes ∧ e.target ∈ g.nodes) ∧
    (∀ a b, g.containsEdge a b = true ↔ ⟨a, b⟩ ∈ g.edges) ∧
    (∀ n, g.callees n = (g.edges.toList.filter (·.source == n)).map Edge.target ∧
      (g.callees n).Pairwise (· < ·) ∧ g.outDegree n = (g.callees n).length) ∧
    (∀ n, g.callers n = (g.edges.toList.filter (·.target == n)).map Edge.source ∧
      (g.callers n).Pairwise (· < ·) ∧ g.inDegree n = (g.callers n).length) ∧
    (g.nodes.toList.map g.outDegree).sum = g.edgeCount ∧
    (g.nodes.toList.map g.inDegree).sum = g.edgeCount ∧
    (∀ others, (build others).nodes = g.nodes → (build others).edges = g.edges →
      build others = g) ∧
    (∀ a b, ((g.addEdge a b).1 = false ↔ a ∉ g.nodes ∨ b ∉ g.nodes) ∧
      ((g.addEdge a b).1 = false → (g.addEdge a b).2 = g)) := by
  intro g
  have h : g.Consistent := build_consistent steps
  refine ⟨mem_nodes_build steps, calls_build steps, fun e he => h.ends he, h.containsEdge_iff,
    ?_, ?_, h.sum_outDegree, h.sum_inDegree, ?_, ?_⟩
  · intro n
    exact ⟨h.callees_eq n, NameSet.ascending _, Std.ExtTreeSet.length_toList.symm⟩
  · intro n
    exact ⟨h.callers_eq n, NameSet.ascending _, Std.ExtTreeSet.length_toList.symm⟩
  · intro others hn he
    exact (build_consistent others).ext h hn he
  · intro a b
    refine ⟨addEdge_fst_eq_false_iff g a b, fun hf => ?_⟩
    rw [addEdge_refused ((addEdge_fst_eq_false_iff g a b).1 hf)]

end CallGraph

end CallAtlas.Graph
