import CallAtlas.Parsing.Parse
import CallAtlas.Syntax.Node

/-!
# From parse trees to syntax trees

Hidden trees dissolve into their children, and what is shown under another name or plays a part gets
that name or field. A field of a hidden tree is handed to its children.
-/

namespace CallAtlas.Syntax

open Grammar Parsing

/-- A child still to be put in its place. -/
structure Piece where
  tree : ParseTree
  /-- The name under which the tree is shown, if not its own. -/
  shown : Option ShownName
  field : Option String
deriving Inhabited

namespace Piece

/-- Whether the piece becomes a node. -/
def isNode (p : Piece) : Bool := p.shown.isSome || p.tree.visible

/-- The pieces of a tree. `outer` is the field of a hidden tree. -/
def childrenOf (table : ParseTable) (t : ParseTree) (outer : Option String) : List Piece :=
  let showing := table.showings.getD t.display default
  let (pieces, _) := t.children.foldl (fun ((pieces, i) : List Piece × Nat) c =>
    if c.extra then ({ tree := c, shown := none, field := none } :: pieces, i)
    else
      let shown := showing.faces.getD i none
      let field := (showing.fields.getD i none).or outer
      ({ tree := c, shown, field } :: pieces, i + 1)) ([], 0)
  pieces.reverse

end Piece

/-- A node whose children are being gathered. -/
structure Opened where
  shape : Shape
  /-- Whether its extras are listed under its own name. -/
  renames : Bool
  /-- Children still to be put in their places. -/
  pieces : List Piece
  /-- Finished children, the last one first. -/
  done : List Node
deriving Inhabited

namespace Opened

/-- How a label shows. -/
def faceOf (table : ParseTable) : Label → Face
  | .symbol (.token t) => table.tokenFaces.getD t default
  | .symbol (.rule r) => table.ruleFaces.getD r default
  | .error => ⟨"ERROR", .named⟩
  | .skipped => ⟨"", .hidden⟩

/-- Opens a node below another one. -/
def ofPiece (table : ParseTable) (parent : Option Opened) (p : Piece) : Opened :=
  let t := p.tree
  let face := faceOf table t.label
  let (name, visibility) := match p.shown with
    | some s => (s.name, s.visibility)
    | none => (face.name, face.visibility)
  let kind := Kind.ofName name
  let named := visibility != .anonymous
  let shape : Shape :=
    { kind, named, field := p.field.map Field.ofName, start := t.start, stop := t.stop,
      missing := t.missing, hasError := t.isFaulty }
  let own : Opened :=
    { shape, renames := p.shown.isSome, pieces := Piece.childrenOf table t none, done := [] }
  match parent with
  | some q =>
    if t.extra && q.renames then
      { own with
        shape := { shape with
          listedKind := q.shape.listedKind, listedNamed := q.shape.listedNamed }
        renames := true }
    else own
  | none => own

/-- The finished node. -/
def close (o : Opened) : Node := .node o.shape o.done.reverse

end Opened

/-- Builds the nodes of some opened nodes, the innermost first. `fuel` bounds the number of trees. -/
def build (table : ParseTable) : Nat → List Opened → Option Node
  | 0, _ => none
  | _, [] => none
  | fuel + 1, o :: outer =>
    match o.pieces with
    | [] =>
      match outer with
      | [] => some o.close
      | q :: rest => build table fuel ({ q with done := o.close :: q.done } :: rest)
    | p :: pieces =>
      let o := { o with pieces }
      if p.isNode then build table fuel (Opened.ofPiece table (some o) p :: o :: outer)
      else build table fuel
        ({ o with pieces := Piece.childrenOf table p.tree p.field ++ pieces } :: outer)

/-- The syntax tree of a text. -/
def Node.ofText (table : ParseTable) (text : ByteArray) : Option Node :=
  let job : Job := { table, text }
  job.parse.bind fun tree =>
    build table (256 * job.fuel)
      [Opened.ofPiece table none { tree, shown := none, field := none }]

end CallAtlas.Syntax
