import CallAtlas.Graph.CallGraph

/-!
# Cycles of calls

The search for cycles goes through the graph in depth first order. It keeps its path itself, so that
the length of a chain of calls is not limited, and reports a cycle whenever it meets a function that
lies on the path.
-/

namespace CallAtlas.Graph

/-- A function on the path of the search. -/
structure Frame where
  name : String
  /-- The callees not yet looked at, in ascending order. -/
  pending : List String
deriving DecidableEq, Inhabited, Repr

/-- The state of the search for cycles. -/
structure CycleSearch where
  /-- The functions met so far. -/
  visited : NameSet := ∅
  /-- The functions on the path. -/
  onPath : NameSet := ∅
  /-- The path, its end first. -/
  path : List Frame := []
  /-- The cycles found so far, the last one first. -/
  found : List (List String) := []

namespace CycleSearch

/-- Goes to a function that has not been met. -/
def enter (g : CallGraph) (s : CycleSearch) (name : String) : CycleSearch :=
  { s with
    visited := s.visited.insert name
    onPath := s.onPath.insert name
    path := ⟨name, g.callees name⟩ :: s.path }

/-- The part of the path from a function on, in the order of the calls, gathered while going back along
the path. `none` if the function is not on the path. -/
def cycleBack (name : String) : List String → List Frame → Option (List String)
  | _, [] => none
  | gathered, f :: rest =>
    if f.name = name then some (name :: gathered)
    else cycleBack name (f.name :: gathered) rest

/-- Looks at the next callee of the function at the end of the path, or goes back if there is none. -/
def step (g : CallGraph) (s : CycleSearch) : CycleSearch :=
  match s.path with
  | [] => s
  | ⟨name, []⟩ :: rest => { s with onPath := s.onPath.erase name, path := rest }
  | ⟨name, callee :: pending⟩ :: rest =>
    let path := ⟨name, pending⟩ :: rest
    if !s.visited.contains callee then enter g { s with path } callee
    else if s.onPath.contains callee then
      match cycleBack callee [] path with
      | some cycle => { s with path, found := cycle :: s.found }
      | none => { s with path }
    else { s with path }

/-- Steps until the path is empty. `fuel` bounds the number of steps. -/
def finish (g : CallGraph) : Nat → CycleSearch → CycleSearch
  | 0, s => s
  | fuel + 1, s => if s.path.isEmpty then s else finish g fuel (step g s)

/-- No search from one function takes more steps: every function is entered and left at most once, and
every call looked at once. -/
def enough (g : CallGraph) : Nat := 2 * g.nodeCount + g.edgeCount + 1

/-- Searches from a function unless it has been met. -/
def explore (g : CallGraph) (s : CycleSearch) (root : String) : CycleSearch :=
  if s.visited.contains root then s else finish g (enough g) (enter g s root)

end CycleSearch

namespace CallGraph

/-- The cycles that a depth first search finds, in the order in which it finds them. A function that
calls itself is a cycle of one. -/
def cycles (g : CallGraph) : List (List String) :=
  (g.nodes.toList.foldl (CycleSearch.explore g) {}).found.reverse

end CallGraph

end CallAtlas.Graph
