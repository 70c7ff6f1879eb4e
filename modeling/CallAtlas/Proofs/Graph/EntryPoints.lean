import CallAtlas.Graph.Statistics
import CallAtlas.Proofs.Graph.Search.Cycles
import Mathlib.Order.WellFoundedSet

/-!
# Entry points

An entry point calls and is not called. Where the search finds no cycle, going back from a function to
its callers comes to an end, and it ends at an entry point unless the function is isolated. So a graph
with calls and without entry points has a cycle.
-/

namespace CallAtlas.Graph

open Relation

/-- Going back along a relation that leads in no circle and out of finitely many elements only, one
comes to an element that nothing leads to. -/
theorem Acyclic.exists_source {α : Type} {r : α → α → Prop} (h : Acyclic r) {s : Set α}
    (hs : s.Finite) (hr : ∀ {a b}, r a b → a ∈ s) (n : α) :
    ∃ e, ReflTransGen r e n ∧ ∀ m, ¬ r m e := by
  have hstep : ∀ a, (∀ m, r m a → ∃ e, ReflTransGen r e m ∧ ∀ k, ¬ r k e) →
      ∃ e, ReflTransGen r e a ∧ ∀ k, ¬ r k e := by
    intro a ih
    by_cases ha : ∃ m, r m a
    · obtain ⟨m, hm⟩ := ha
      obtain ⟨e, hem, he⟩ := ih m hm
      exact ⟨e, hem.tail hm, he⟩
    · exact ⟨a, .refl, not_exists.1 ha⟩
  have : Std.Irrefl (TransGen r) := ⟨h⟩
  have : IsStrictOrder α (TransGen r) := {}
  have hsource : ∀ a ∈ s, ∃ e, ReflTransGen r e a ∧ ∀ k, ¬ r k e := by
    intro a ha
    refine (hs.wellFoundedOn (r := TransGen r)).induction ha fun b _ ih => hstep b fun m hm => ?_
    exact ih m (hr hm) (.single hm)
  exact hstep n fun m hm => hsource m (hr hm)

namespace CallGraph

theorem finite_nodes (g : CallGraph) : {n | n ∈ g.nodes}.Finite := by
  refine g.nodes.toList.finite_toSet.subset fun n hn => ?_
  exact Std.ExtTreeSet.mem_toList.2 hn

section Consistent

variable {g : CallGraph} (hg : g.Consistent)

include hg

theorem Consistent.outDegree_eq_zero_iff (n : String) :
    g.outDegree n = 0 ↔ ∀ m, ¬ g.Calls n m := by
  rw [hg.outDegree_eq, List.length_eq_zero_iff, List.eq_nil_iff_forall_not_mem]
  simp only [mem_edgesFrom]
  constructor
  · exact fun h m hm => h ⟨n, m⟩ ⟨hm, rfl⟩
  · rintro h ⟨a, b⟩ ⟨hab, rfl⟩
    exact h b hab

theorem Consistent.inDegree_eq_zero_iff (n : String) :
    g.inDegree n = 0 ↔ ∀ m, ¬ g.Calls m n := by
  rw [hg.inDegree_eq, List.length_eq_zero_iff, List.eq_nil_iff_forall_not_mem]
  simp only [mem_edgesTo]
  constructor
  · exact fun h m hm => h ⟨m, n⟩ ⟨hm, rfl⟩
  · rintro h ⟨a, b⟩ ⟨hab, rfl⟩
    exact h a hab

theorem Consistent.mem_entryPoints (n : String) :
    n ∈ g.entryPoints ↔ n ∈ g.nodes ∧ (∀ m, ¬ g.Calls m n) ∧ ∃ m, g.Calls n m := by
  rw [entryPoints, List.mem_filter, Std.ExtTreeSet.mem_toList, Bool.and_eq_true, beq_iff_eq,
    decide_eq_true_eq, hg.inDegree_eq_zero_iff, gt_iff_lt, Nat.pos_iff_ne_zero, ne_eq,
    hg.outDegree_eq_zero_iff, not_forall_not]

theorem Consistent.mem_isolated (n : String) :
    n ∈ g.isolated ↔ n ∈ g.nodes ∧ (∀ m, ¬ g.Calls m n) ∧ ∀ m, ¬ g.Calls n m := by
  rw [isolated, List.mem_filter, Std.ExtTreeSet.mem_toList, Bool.and_eq_true, beq_iff_eq,
    beq_iff_eq, hg.inDegree_eq_zero_iff, hg.outDegree_eq_zero_iff]

/-- Without cycles each function that calls or is called is an entry point or called from one, perhaps
by way of others. -/
theorem mem_entryPoints_or_reached (hcycles : g.cycles = []) {n : String} (hn : n ∈ g.nodes)
    (hisolated : n ∉ g.isolated) :
    n ∈ g.entryPoints ∨ ∃ e ∈ g.entryPoints, TransGen g.Calls e n := by
  have hacyclic : Acyclic g.Calls := (cycles_eq_nil_iff hg).1 hcycles
  obtain ⟨e, hen, he⟩ := hacyclic.exists_source g.finite_nodes (fun h => (hg.ends h).1) n
  rcases reflTransGen_iff_eq_or_transGen.1 hen with rfl | hen
  · left
    rw [hg.mem_isolated] at hisolated
    refine (hg.mem_entryPoints n).2 ⟨hn, he, ?_⟩
    by_contra hnone
    exact hisolated ⟨hn, he, not_exists.1 hnone⟩
  · obtain ⟨m, hem, -⟩ := TransGen.head'_iff.1 hen
    exact .inr ⟨e, (hg.mem_entryPoints e).2 ⟨(hg.ends hem).1, he, m, hem⟩, hen⟩

/-- The caller of a call is an entry point, or some other function is. -/
theorem entryPoints_ne_nil (hcycles : g.cycles = []) {a b : String} (hab : g.Calls a b) :
    g.entryPoints ≠ [] := by
  have hisolated : a ∉ g.isolated := fun h => ((hg.mem_isolated a).1 h).2.2 b hab
  rcases mem_entryPoints_or_reached hg hcycles (hg.ends hab).1 hisolated with ha | ⟨e, he, -⟩
  · exact List.ne_nil_of_mem ha
  · exact List.ne_nil_of_mem he

end Consistent

theorem exists_call_of_edgeCount_pos {g : CallGraph} (h : 0 < g.edgeCount) :
    ∃ a b, g.Calls a b := by
  rw [edgeCount, ← Std.ExtTreeSet.length_toList] at h
  obtain ⟨⟨a, b⟩, hab⟩ := List.exists_mem_of_length_pos h
  exact ⟨a, b, Std.ExtTreeSet.mem_toList.1 hab⟩

/-- If no cycle is reported for a graph under construction, its entry points account for all functions
but the isolated ones: each of them is an entry point or reached from one along calls. So the
statistics of a graph with calls show an entry point or a cycle. -/
theorem entry_points_account (steps : List Insertion) :
    let g := build steps
    (g.cycles = [] → ∀ n ∈ g.nodes, n ∉ g.isolated →
      n ∈ g.entryPoints ∨ ∃ e ∈ g.entryPoints, TransGen g.Calls e n) ∧
    (0 < g.statistics.totalCalls → g.statistics.entryPoints = 0 → 0 < g.statistics.cycles) := by
  intro g
  have hg : g.Consistent := build_consistent steps
  refine ⟨fun hcycles n => mem_entryPoints_or_reached hg hcycles, fun hcalls hentry => ?_⟩
  obtain ⟨a, b, hab⟩ := exists_call_of_edgeCount_pos hcalls
  by_contra hzero
  have hcycles : g.cycles = [] := List.length_eq_zero_iff.1 (Nat.eq_zero_of_not_pos hzero)
  exact entryPoints_ne_nil hg hcycles hab (List.length_eq_zero_iff.1 hentry)

end CallGraph

end CallAtlas.Graph
