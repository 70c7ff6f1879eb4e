import CallAtlas.Syntax.Node

/-!
# Cursors

A cursor stands at a node of a tree. It keeps what lies around the node, level by level, so that it can
move to the first child, to the next sibling and back to the parent.
-/

namespace CallAtlas.Syntax

/-- What lies around a node within its parent. -/
structure Level where
  /-- The parent without its children. -/
  parent : Shape
  /-- The siblings before the node, the nearest first. -/
  before : List Node
  /-- The siblings after the node. -/
  after : List Node
deriving Inhabited, Repr

namespace Level

/-- The parent, with a node in the place that the level leaves open. -/
def close (l : Level) (n : Node) : Node := .node l.parent (l.before.reverse ++ n :: l.after)

end Level

/-- A node and what lies around it. -/
structure Cursor where
  node : Node
  /-- The levels around the node, the innermost first. At the root there is none. -/
  levels : List Level
deriving Inhabited, Repr

namespace Cursor

/-- The cursor at the root of a tree. -/
def ofRoot (root : Node) : Cursor := ⟨root, []⟩

/-- The cursor at the first child. -/
def firstChild? (c : Cursor) : Option Cursor :=
  match c.node with
  | .node _ [] => none
  | .node shape (child :: after) => some ⟨child, ⟨shape, [], after⟩ :: c.levels⟩

/-- The cursor at the next sibling. -/
def nextSibling? (c : Cursor) : Option Cursor :=
  match c.levels with
  | [] => none
  | ⟨_, _, []⟩ :: _ => none
  | ⟨parent, before, sibling :: after⟩ :: outer =>
    some ⟨sibling, ⟨parent, c.node :: before, after⟩ :: outer⟩

/-- The cursor at the parent. -/
def parent? (c : Cursor) : Option Cursor :=
  match c.levels with
  | [] => none
  | level :: outer => some ⟨level.close c.node, outer⟩

/-! ## How many nodes are ahead -/

/-- How many nodes come after those inside some levels, the innermost of which comes first. -/
def outside : List Level → Nat
  | [] => 0
  | level :: outer => Node.countAll level.after + outside outer

/-- How many nodes come after the node and all that is inside it. -/
def ahead (c : Cursor) : Nat := outside c.levels

/-- How many nodes come from the node on. -/
def remaining (c : Cursor) : Nat := c.node.count + c.ahead

theorem ahead_lt_remaining (c : Cursor) : c.ahead < c.remaining := by
  obtain ⟨⟨shape, children⟩, levels⟩ := c
  simp only [remaining, Node.count]
  omega

theorem remaining_firstChild {c child : Cursor} (h : c.firstChild? = some child) :
    child.remaining < c.remaining := by
  obtain ⟨⟨shape, _ | ⟨n, after⟩⟩, levels⟩ := c
  · cases h
  · cases h
    simp only [remaining, ahead, outside, Node.count, Node.countAll]
    omega

theorem remaining_nextSibling {c sibling : Cursor} (h : c.nextSibling? = some sibling) :
    sibling.remaining = c.ahead := by
  obtain ⟨n, _ | ⟨⟨parent, before, _ | ⟨s, after⟩⟩, outer⟩⟩ := c
  · cases h
  · cases h
  · cases h
    simp only [remaining, ahead, outside, Node.countAll, Nat.add_assoc]

/-- Without a next sibling nothing is lost on the way to the parent. -/
theorem ahead_parent {c parent : Cursor} (hlast : c.nextSibling? = none)
    (h : c.parent? = some parent) : parent.ahead = c.ahead := by
  obtain ⟨n, _ | ⟨⟨shape, before, _ | ⟨s, after⟩⟩, outer⟩⟩ := c
  · cases h
  · cases h
    simp only [ahead, outside, Node.countAll, Nat.zero_add]
  · cases hlast

theorem levels_parent {c parent : Cursor} (h : c.parent? = some parent) :
    parent.levels.length < c.levels.length := by
  obtain ⟨n, _ | ⟨level, outer⟩⟩ := c
  · cases h
  · cases h
    exact Nat.lt_succ_self _

end Cursor

end CallAtlas.Syntax
