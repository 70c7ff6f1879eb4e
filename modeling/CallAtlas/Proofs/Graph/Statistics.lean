import CallAtlas.Proofs.Graph.EntryPoints
import Mathlib.Algebra.Group.Action.Defs

/-!
# Statistics of a call graph

The numbers that sum up a graph are worked out in different ways, from the edges, from the maps kept
beside them, and by the search for cycles. They bound each other all the same: each cycle found is
closed by a call of its own, each function that calls itself is a cycle of one, and the degrees of all
functions add up to the number of calls.
-/

namespace CallAtlas.Graph

theorem foldl_max_le_iff {f : String → Nat} {names : List String} {least bound : Nat} :
    names.foldl (fun m n => max m (f n)) least ≤ bound ↔
      least ≤ bound ∧ ∀ n ∈ names, f n ≤ bound := by
  induction names generalizing least with
  | nil => simp
  | cons n names ih => rw [List.foldl_cons, ih, Nat.max_le, List.forall_mem_cons, and_assoc]

/-- A sum is at most the number of its terms times the greatest of them. -/
theorem sum_le_length_mul_foldl_max (f : String → Nat) (names : List String) :
    (names.map f).sum ≤ names.length * names.foldl (fun m n => max m (f n)) 0 := by
  have hle := List.sum_le_card_nsmul (names.map f) (names.foldl (fun m n => max m (f n)) 0) ?_
  · rwa [List.length_map, smul_eq_mul] at hle
  · intro k hk
    obtain ⟨n, hn, rfl⟩ := List.mem_map.1 hk
    exact (foldl_max_le_iff.1 le_rfl).2 n hn

/-- The call from the last function of a cycle to the first. -/
def closingCall (cycle : List String) : Edge := ⟨cycle.getLastD "", cycle.headD ""⟩

theorem closingCall_eq_of_closes {cycle : List String} {e : Edge} (h : Closes cycle e) :
    closingCall cycle = e := by
  obtain ⟨hlast, hhead⟩ := h
  rw [closingCall, List.getLastD_eq_getLast?, List.headD_eq_head?_getD, hlast, hhead]
  rfl

namespace CallGraph

/-- The functions that no call leads to, in ascending order. -/
def uncalled (g : CallGraph) : List String :=
  g.nodes.toList.filter fun n => g.edges.toList.all (·.target != n)

/-- The calls of functions to themselves. -/
def selfCalls (g : CallGraph) : List Edge := g.edges.toList.filter fun e => e.source == e.target

theorem mem_selfCalls {g : CallGraph} {e : Edge} :
    e ∈ g.selfCalls ↔ e ∈ g.edges ∧ e.source = e.target := by
  simp [selfCalls]

theorem length_nodes (g : CallGraph) : g.nodes.toList.length = g.nodeCount :=
  Std.ExtTreeSet.length_toList

theorem length_edges (g : CallGraph) : g.edges.toList.length = g.edgeCount :=
  Std.ExtTreeSet.length_toList

section Consistent

variable {g : CallGraph} (hg : g.Consistent)

include hg

/-! ## Cycles -/

theorem closingCall_mem_edges {c : List String} (hc : c ∈ g.cycles) :
    closingCall c ∈ g.edges.toList := by
  obtain ⟨e, he, hclose⟩ := (isCycle_of_mem hg hc).closed
  rw [closingCall_eq_of_closes hclose]
  exact Std.ExtTreeSet.mem_toList.2 he

/-- No two cycles are closed by the same call. -/
theorem nodup_closingCalls : (g.cycles.map closingCall).Nodup := by
  obtain ⟨order, h⟩ := (CycleSearch.invariant_whole hg).recorded
  rw [List.Nodup, List.pairwise_map, cycles, List.pairwise_reverse]
  refine h.distinct.imp_of_mem fun {c d} hc hd hdistinct heq => ?_
  obtain ⟨e, -, he⟩ := (h.cycle d hd).closed
  obtain ⟨k, -, hk⟩ := (h.cycle c hc).closed
  rw [closingCall_eq_of_closes he, closingCall_eq_of_closes hk] at heq
  exact hdistinct k hk (heq ▸ he)

theorem length_cycles_le : g.cycles.length ≤ g.edgeCount := by
  rw [← length_edges, ← List.length_map (f := closingCall)]
  refine (List.subperm_of_subset (nodup_closingCalls hg) ?_).length_le
  intro e he
  obtain ⟨c, hc, rfl⟩ := List.mem_map.1 he
  exact closingCall_mem_edges hg hc

theorem singleton_mem_cycles_iff (f : String) : [f] ∈ g.cycles ↔ g.Calls f f := by
  constructor
  · intro hf
    have hclosing := closingCall_mem_edges hg hf
    exact Std.ExtTreeSet.mem_toList.1 hclosing
  · intro hf
    rw [← List.count_pos_iff, count_cycles_self hg hf]
    exact Nat.one_pos

/-- The cycles of one are the functions that call themselves. -/
theorem length_selfCalls : g.selfCalls.length = (g.cycles.filter (·.length == 1)).length := by
  rw [← List.length_map (f := fun e : Edge => [e.source])]
  refine List.Perm.length_eq ((List.perm_ext_iff_of_nodup ?_ ((cycles_nodup hg).filter _)).2 ?_)
  · refine List.Nodup.map_on ?_ ((EdgeSet.nodup g.edges).filter _)
    rintro ⟨a, b⟩ hab ⟨c, d⟩ hcd heq
    obtain rfl : a = b := (mem_selfCalls.1 hab).2
    obtain rfl : c = d := (mem_selfCalls.1 hcd).2
    obtain rfl : a = c := List.singleton_inj.1 heq
    rfl
  · intro c
    rw [List.mem_map, List.mem_filter, beq_iff_eq, List.length_eq_one_iff]
    constructor
    · rintro ⟨⟨a, b⟩, hab, rfl⟩
      obtain ⟨hcall, rfl : a = b⟩ := mem_selfCalls.1 hab
      exact ⟨(singleton_mem_cycles_iff hg a).2 hcall, a, rfl⟩
    · rintro ⟨hc, f, rfl⟩
      exact ⟨⟨f, f⟩, mem_selfCalls.2 ⟨(singleton_mem_cycles_iff hg f).1 hc, rfl⟩, rfl⟩

/-! ## Degrees -/

theorem outDegree_le (n : String) : g.outDegree n ≤ g.nodeCount := by
  rw [outDegree, ← Std.ExtTreeSet.length_toList, ← length_nodes]
  refine (List.subperm_of_subset (NameSet.nodup _) fun m hm => ?_).length_le
  exact Std.ExtTreeSet.mem_toList.2 (hg.ends ((hg.mem_callees n m).1 hm)).2

theorem inDegree_le (n : String) : g.inDegree n ≤ g.nodeCount := by
  rw [inDegree, ← Std.ExtTreeSet.length_toList, ← length_nodes]
  refine (List.subperm_of_subset (NameSet.nodup _) fun m hm => ?_).length_le
  rw [Std.ExtTreeSet.mem_toList, hg.mem_incoming] at hm
  exact Std.ExtTreeSet.mem_toList.2 (hg.ends hm).1

/-- The functions that no call leads to are the entry points and the isolated functions. -/
theorem length_uncalled : g.entryPoints.length + g.isolated.length = g.uncalled.length := by
  have huncalled : ∀ n, (g.inDegree n == 0) = g.edges.toList.all (·.target != n) := by
    intro n
    rw [Bool.eq_iff_iff, beq_iff_eq, hg.inDegree_eq_zero_iff, List.all_eq_true]
    simp only [Std.ExtTreeSet.mem_toList, bne_iff_ne]
    constructor
    · rintro h ⟨a, b⟩ hab rfl
      exact h a hab
    · exact fun h m hm => h ⟨m, n⟩ hm rfl
  have hentry : g.entryPoints = g.uncalled.filter fun n => !(g.outDegree n == 0) := by
    rw [entryPoints, uncalled, List.filter_filter]
    refine List.filter_congr fun n _ => ?_
    rw [huncalled, Bool.and_comm]
    congr 1
    rw [Bool.eq_iff_iff, decide_eq_true_eq, Bool.not_eq_true', beq_eq_false_iff_ne, gt_iff_lt,
      Nat.pos_iff_ne_zero]
  have hisolated : g.isolated = g.uncalled.filter fun n => g.outDegree n == 0 := by
    rw [isolated, uncalled, List.filter_filter]
    refine List.filter_congr fun n _ => ?_
    rw [huncalled, Bool.and_comm]
  rw [hentry, hisolated, Nat.add_comm, ← List.length_eq_length_filter_add]

theorem length_isolated_eq_iff : g.isolated.length = g.nodeCount ↔ g.edgeCount = 0 := by
  rw [← length_nodes, isolated, List.length_filter_eq_length_iff, ← length_edges,
    List.length_eq_zero_iff, List.eq_nil_iff_forall_not_mem]
  simp only [Std.ExtTreeSet.mem_toList, Bool.and_eq_true, beq_iff_eq, hg.inDegree_eq_zero_iff,
    hg.outDegree_eq_zero_iff]
  constructor
  · rintro h ⟨a, b⟩ hab
    exact (h a (hg.ends hab).1).2 b hab
  · exact fun h n _ => ⟨fun m => h ⟨m, n⟩, fun m => h ⟨n, m⟩⟩

end Consistent

/-- The statistics of a graph under construction agree with each other. The functions that call
themselves are the cycles of one, and there are no more cycles than calls; the greatest degrees bound
the calls and are bounded by the functions; the entry points and the isolated functions are those that
no call leads to, and all functions are isolated only in a graph without calls. -/
theorem statistics_agree (steps : List Insertion) :
    let g := build steps
    let s := g.statistics
    s.selfCalls ≤ s.cycles ∧ s.cycles ≤ s.totalCalls ∧
    s.selfCalls = (g.cycles.filter (·.length == 1)).length ∧
    s.totalCalls ≤ s.totalFunctions * s.maxOutDegree ∧
    s.totalCalls ≤ s.totalFunctions * s.maxInDegree ∧
    s.maxInDegree ≤ s.totalFunctions ∧ s.maxOutDegree ≤ s.totalFunctions ∧
    s.entryPoints + s.isolated = g.uncalled.length ∧
    (s.isolated = s.totalFunctions ↔ s.totalCalls = 0) := by
  intro g s
  have hg : g.Consistent := build_consistent steps
  have hself : s.selfCalls = (g.cycles.filter (·.length == 1)).length := length_selfCalls hg
  refine ⟨?_, length_cycles_le hg, hself, ?_, ?_, ?_, ?_, length_uncalled hg,
    length_isolated_eq_iff hg⟩
  · rw [hself]
    exact List.length_filter_le _ _
  · show g.edgeCount ≤ g.nodeCount * _
    rw [← hg.sum_outDegree, ← length_nodes]
    exact sum_le_length_mul_foldl_max g.outDegree _
  · show g.edgeCount ≤ g.nodeCount * _
    rw [← hg.sum_inDegree, ← length_nodes]
    exact sum_le_length_mul_foldl_max g.inDegree _
  · exact foldl_max_le_iff.2 ⟨Nat.zero_le _, fun n _ => inDegree_le hg n⟩
  · exact foldl_max_le_iff.2 ⟨Nat.zero_le _, fun n _ => outDegree_le hg n⟩

end CallGraph

end CallAtlas.Graph
