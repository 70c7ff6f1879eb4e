import Std.Data.ExtTreeMap
import Std.Data.ExtTreeSet

/-!
# Names and edges

Sets of names and of edges between names. They are listed in ascending order of code points, and two
sets are equal when they have the same members.
-/

namespace CallAtlas.Graph

/-- A set of names. -/
abbrev NameSet := Std.ExtTreeSet String

/-- A directed edge between two names. -/
structure Edge where
  source : String
  target : String
deriving DecidableEq, Inhabited, Repr

namespace Edge

/-- Edges are ordered by their sources, and those of one source by their targets. -/
def order : Edge → Edge → Ordering :=
  compareLex (compareOn source) (compareOn target)

instance : Std.TransCmp order :=
  inferInstanceAs (Std.TransCmp (compareLex (compareOn source) (compareOn target)))

instance : Std.LawfulEqCmp order where
  compare_self {e} := by simp [order, compareLex, compareOn]
  eq_of_compare {e f} h := by
    simp only [order, compareLex, compareOn, Ordering.then_eq_eq, Std.compare_eq_iff_eq] at h
    cases e
    cases f
    simp_all

end Edge

/-- A set of edges. -/
abbrev EdgeSet := Std.ExtTreeSet Edge Edge.order

end CallAtlas.Graph
