import CallAtlas.Graph.Names

/-!
# Sets of names and edges as ascending lists

A set is listed in ascending order and without repetition, so that it is known by its list. The order
of edges is that of their sources, and for one source that of their targets.
-/

namespace CallAtlas.Graph

theorem compare_eq_lt_iff (a b : String) : compare a b = .lt ↔ a < b := by
  show compareOfLessAndEq a b = .lt ↔ a < b
  exact compareOfLessAndEq_eq_lt

namespace NameSet

theorem ascending (s : NameSet) : s.toList.Pairwise (· < ·) :=
  s.ordered_toList.imp fun h => (compare_eq_lt_iff _ _).1 h

theorem nodup (s : NameSet) : s.toList.Nodup :=
  (ascending s).imp fun h => String.ne_of_lt h

end NameSet

namespace Edge

/-- An edge stands before another one if its source does, or if the sources are the same and its
target does. -/
def Before (e f : Edge) : Prop :=
  e.source < f.source ∨ e.source = f.source ∧ e.target < f.target

theorem order_eq_lt_iff (e f : Edge) : order e f = .lt ↔ e.Before f := by
  simp only [order, compareLex, compareOn, Ordering.then_eq_lt, compare_eq_lt_iff,
    Std.compare_eq_iff_eq, Before]

end Edge

namespace EdgeSet

theorem mem_insert (s : EdgeSet) (e f : Edge) : f ∈ s.insert e ↔ e = f ∨ f ∈ s := by
  rw [Std.ExtTreeSet.mem_insert, Std.LawfulEqCmp.compare_eq_iff_eq]

theorem ascending (s : EdgeSet) : s.toList.Pairwise Edge.Before :=
  s.ordered_toList.imp fun h => (Edge.order_eq_lt_iff _ _).1 h

theorem nodup (s : EdgeSet) : s.toList.Nodup :=
  s.distinct_toList.imp fun h he => h (by rw [he]; exact Std.ReflCmp.compare_self)

end EdgeSet

end CallAtlas.Graph
