import CallAtlas.Syntax.Cursor

/-!
# Searching a tree

The search walks through a tree with a cursor and counts the levels that it goes down and up, so that a
tree of any depth can be searched. It visits every node before its children and stops at the first node
that the check reports on.
-/

namespace CallAtlas.Syntax

/-- How a search ends. -/
inductive Outcome (α : Type) where
  | found (a : α)
  /-- There is nothing to be found. -/
  | exhausted
  /-- The depth would fall below zero. -/
  | negativeDepth
deriving DecidableEq, Inhabited, Repr

namespace Outcome

variable {α : Type}

/-- What has been found. -/
def found? : Outcome α → Option α
  | found a => some a
  | exhausted => none
  | negativeDepth => none

/-- A search that finds what is there, or is exhausted. -/
def ofOption : Option α → Outcome α
  | some a => found a
  | none => exhausted

end Outcome

namespace Cursor

/-- The next node when all below the cursor has been visited, and its depth: the next sibling, or that
of the nearest node above that has one. -/
def climb (c : Cursor) (depth : Nat) : Outcome (Cursor × Nat) :=
  match c.nextSibling? with
  | some sibling => .found (sibling, depth)
  | none =>
    match _h : c.parent? with
    | none => .exhausted
    | some parent =>
      match depth with
      | 0 => .negativeDepth
      | depth + 1 => climb parent depth
termination_by c.levels.length
decreasing_by exact levels_parent ‹_›

theorem remaining_climb (c : Cursor) (depth : Nat) {next : Cursor} {d : Nat}
    (h : c.climb depth = .found (next, d)) : next.remaining = c.ahead := by
  fun_induction climb c depth with
  | case1 c depth sibling hsibling =>
    cases h
    exact remaining_nextSibling hsibling
  | case2 => cases h
  | case3 => cases h
  | case4 c hlast parent hparent depth ih => rw [ih h, ahead_parent hlast hparent]

/-- Walks from a node of the given depth on until the check reports something. The check may keep a state
from one node to the next. -/
def walk {σ α : Type} (check : Node → Nat → StateM σ (Option α)) (c : Cursor) (depth : Nat) :
    StateM σ (Outcome α) := do
  match ← check c.node depth with
  | some report => return .found report
  | none =>
    match _h : c.firstChild? with
    | some child => walk check child (depth + 1)
    | none =>
      match _h : c.climb depth with
      | .found (next, d) => walk check next d
      | .exhausted => return .exhausted
      | .negativeDepth => return .negativeDepth
termination_by c.remaining
decreasing_by
  · exact remaining_firstChild ‹_›
  · exact remaining_climb c depth ‹_› ▸ c.ahead_lt_remaining

end Cursor

namespace Node

/-- The first report of the check on a node and its distance from the root, each node before its
children. -/
def search {α : Type} (root : Node) (check : Node → Nat → Option α) : Option α :=
  let walked : StateM Unit (Outcome α) :=
    (Cursor.ofRoot root).walk (fun n depth => return check n depth) 0
  (walked ()).1.found?

end Node

end CallAtlas.Syntax
