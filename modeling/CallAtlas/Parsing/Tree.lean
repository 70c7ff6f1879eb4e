import CallAtlas.Parsing.Layout

/-!
# Parse trees

A parse tree records everything the parser has read, hidden symbols and skipped text included,
together with what the choice between several trees of one text depends on: the cost of the errors
in it and the weight of its rules.
-/

namespace CallAtlas.Parsing

open Grammar Text

/-- What a parse tree stands for. -/
inductive Label where
  | symbol (s : Symbol)
  /-- Text that fits nowhere. -/
  | error
  /-- A part of a text that is being skipped. -/
  | skipped
deriving BEq, Inhabited

/-- A parse tree. -/
structure ParseTree where
  label : Label
  /-- The end of what precedes the tree. -/
  before : Position
  /-- Where the first token of the tree begins. -/
  start : Position
  stop : Position
  /-- Whether the tree stands between the symbols of a rule without belonging to it. -/
  extra : Bool
  /-- Whether the tree is a token that the parser has put in. -/
  missing : Bool
  /-- Whether the tree is a node under its own name. -/
  visible : Bool
  /-- The label of the first token. -/
  firstToken : Label
  /-- The cost of the errors in the tree. -/
  cost : Nat
  /-- The weight of the rules in the tree. -/
  weight : Int
  /-- How many nodes the tree hands to a node that contains it, if it is not itself one. -/
  surface : Nat
  /-- How many nodes are below the tree. -/
  inner : Nat
  /-- How the children show. -/
  display : Nat
  /-- The layout after the last token of the layout in the tree. -/
  layout : Option Layout
  children : Array ParseTree
deriving Inhabited

namespace ErrorCost

/-- The cost of having to recover. -/
def recovery : Nat := 500

/-- The cost of a token put in. -/
def missingToken : Nat := 110

/-- The cost of every node skipped. -/
def skippedTree : Nat := 100

/-- The cost of every line break skipped. -/
def skippedLine : Nat := 30

/-- The cost of skipping the text between two positions. -/
def ofText (start stop : Position) : Nat :=
  (stop.byte - start.byte) + skippedLine * (stop.row - start.row)

end ErrorCost

namespace ParseTree

/-- Whether the uses of a label are nodes under its own name. -/
def isVisible (table : ParseTable) : Label → Bool
  | .error => true
  | .skipped => false
  | .symbol (.token t) => (table.tokenFaces.getD t default).visibility != .hidden
  | .symbol (.rule r) => (table.ruleFaces.getD r default).visibility != .hidden

/-- A token. The end of the text is an extra. -/
def token (table : ParseTable) (label : Label) (before start stop : Position)
    (layout : Option Layout) : ParseTree where
  label
  before
  start
  stop
  extra := label == .symbol (.token table.endToken)
  missing := false
  visible := isVisible table label
  firstToken := label
  cost := 0
  weight := 0
  surface := 0
  inner := 0
  display := 0
  layout
  children := #[]

/-- A token put in at a position. -/
def missingToken (table : ParseTable) (t : Nat) (place : Position) : ParseTree :=
  { token table (.symbol (.token t)) place place place none with
    missing := true
    cost := ErrorCost.missingToken + ErrorCost.recovery }

/-- Whether the tree is the end of the text. -/
def isEnd (table : ParseTable) (t : ParseTree) : Bool :=
  t.label == .symbol (.token table.endToken)

/-- Whether the tree or a part of it is an error. -/
def isFaulty (t : ParseTree) : Bool := t.cost > 0

/-- The cost of having a child skipped. An error without parts has paid for itself. -/
def skipCost (c : ParseTree) : Nat :=
  if c.extra || (c.label == .error && c.children.isEmpty) then 0
  else if c.visible then ErrorCost.skippedTree
  else ErrorCost.skippedTree * c.surface

/-- A tree with children; one without any stands at `place`. -/
def node (table : ParseTable) (label : Label) (children : Array ParseTree) (display : Nat)
    (place : Position) : ParseTree := Id.run do
  let faces := (table.showings.getD display default).faces
  let wrong := label == .error || label == .skipped
  let mut index := 0
  let mut cost := 0
  let mut weight := 0
  let mut surface := 0
  let mut inner := 0
  let mut layout : Option Layout := none
  for c in children do
    if c.label != .skipped then cost := cost + c.cost
    if wrong then cost := cost + c.skipCost
    weight := weight + c.weight
    inner := inner + c.inner
    if c.visible || (!c.extra && (faces.getD index none).isSome) then
      inner := inner + 1
      surface := surface + 1
    else surface := surface + c.surface
    if c.layout.isSome then layout := c.layout
    if !c.extra then index := index + 1
  let (before, start, stop, firstToken) := match children[0]? with
    | some c => (c.before, c.start, (children.back?.getD c).stop, c.firstToken)
    | none => (place, place, place, label)
  if wrong then cost := cost + ErrorCost.recovery + ErrorCost.ofText start stop
  return {
    label, before, start, stop, firstToken, cost, weight, surface, inner, display, layout, children
    extra := false
    missing := false
    visible := isVisible table label }

/-- How many nodes the tree is, itself included. A skipped part counts as one. -/
def nodeCount (t : ParseTree) : Nat :=
  t.inner + (if t.visible || t.label == .skipped then 1 else 0)

/-- The layout of a single token of the layout. -/
def ownLayout (t : ParseTree) : Option Layout := if t.children.isEmpty then t.layout else none

/-- Whether two trees may stand for each other: those of a symbol that both contain errors, or that
have the same extent and shape. -/
def interchangeable (a b : ParseTree) : Bool :=
  a.label == b.label &&
    ((a.cost > 0 && b.cost > 0) ||
      (a.start.byte - a.before.byte == b.start.byte - b.before.byte &&
        a.stop.byte - a.start.byte == b.stop.byte - b.start.byte &&
        a.children.size == b.children.size && a.extra == b.extra && a.ownLayout == b.ownLayout))

/-- The rank of a label: the end of the text, the word token, the other tokens, rules, errors. -/
def rank (table : ParseTable) : Label → Nat
  | .symbol (.token t) =>
    if t = table.endToken then 0 else if t = table.word then 1 else t + 2
  | .symbol (.rule r) => 1000 + r
  | .skipped => 1000000
  | .error => 1000001

/-- Compares trees in depth first order, the label of each node before the number of its children,
on the pairs still to be compared. `fuel` bounds their number. -/
def orderPairs (table : ParseTable) : Nat → List (ParseTree × ParseTree) → Ordering
  | 0, _ => .eq
  | _, [] => .eq
  | fuel + 1, (a, b) :: rest =>
    match compare (rank table a.label) (rank table b.label) with
    | .eq =>
      match compare a.children.size b.children.size with
      | .eq => orderPairs table fuel ((a.children.zip b.children).toList ++ rest)
      | o => o
    | o => o

/-- Whether the second of two trees of one text is to replace the first: it has fewer errors, or more
weight, or comes first in the order of trees. Between trees with errors the later one is taken. -/
def supersedes (table : ParseTable) (size : Nat) (old new : ParseTree) : Bool :=
  if new.cost ≠ old.cost then new.cost < old.cost
  else if new.weight ≠ old.weight then new.weight > old.weight
  else old.cost > 0 || orderPairs table (1000 * (size + 1000)) [(old, new)] == .gt

end ParseTree

end CallAtlas.Parsing
