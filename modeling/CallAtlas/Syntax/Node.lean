import CallAtlas.Text.Position

/-!
# Syntax trees

A syntax tree is what the analyses see of a program. Of the kinds of nodes only those have a name here
that an analysis asks for.

A node that a rule shows under another name lists its comments and other extras under that name, too:
the comment after the statements of a block that is written on the line of its header is listed as a
block. So a node has two kinds, its own and the one under which its parent lists it.
-/

namespace CallAtlas.Syntax

open Text

/-- What a node stands for. -/
inductive Kind where
  | functionDefinition
  | classDefinition
  | decoratedDefinition
  | decorator
  | call
  | identifier
  /-- A member of an object. -/
  | memberAccess
  | block
  | comment
  /-- The word that makes a definition asynchronous. -/
  | asyncWord
  | printStatement
  | execStatement
  /-- Text that fits nowhere. -/
  | error
  | other (name : String)
deriving DecidableEq, Inhabited, Repr

namespace Kind

/-- The kind with the given name. -/
def ofName : String → Kind
  | "function_definition" => functionDefinition
  | "class_definition" => classDefinition
  | "decorated_definition" => decoratedDefinition
  | "decorator" => decorator
  | "call" => call
  | "identifier" => identifier
  | "attribute" => memberAccess
  | "block" => block
  | "comment" => comment
  | "async" => asyncWord
  | "print_statement" => printStatement
  | "exec_statement" => execStatement
  | "ERROR" => error
  | name => other name

/-- The name of a kind, for messages. -/
def name : Kind → String
  | functionDefinition => "function_definition"
  | classDefinition => "class_definition"
  | decoratedDefinition => "decorated_definition"
  | decorator => "decorator"
  | call => "call"
  | identifier => "identifier"
  | memberAccess => "attribute"
  | block => "block"
  | comment => "comment"
  | asyncWord => "async"
  | printStatement => "print_statement"
  | execStatement => "exec_statement"
  | error => "ERROR"
  | other name => name

end Kind

/-- The part that a node plays in its parent. -/
inductive Field where
  | name
  | superclasses
  | function
  /-- The name of the member that is accessed. -/
  | member
  | other (name : String)
deriving DecidableEq, Inhabited, Repr

namespace Field

/-- The field with the given name. -/
def ofName : String → Field
  | "name" => name
  | "superclasses" => superclasses
  | "function" => function
  | "attribute" => member
  | s => other s

end Field

/-- A node without its children. -/
structure Shape where
  kind : Kind
  /-- Whether the node stands for a rule or a token with a name, and not for a fixed text. -/
  named : Bool
  /-- The kind under which the parent lists the node. -/
  listedKind : Kind := kind
  /-- Whether the parent lists the node as a named one. -/
  listedNamed : Bool := named
  field : Option Field := none
  start : Position
  stop : Position
  /-- Whether the node is a token that the parser has put in. -/
  missing : Bool := false
  /-- Whether the node is or contains an error. -/
  hasError : Bool := false
deriving DecidableEq, Inhabited, Repr

/-- A syntax tree. -/
inductive Node where
  | node (shape : Shape) (children : List Node)
deriving Inhabited, Repr

namespace Node

/-- The node without its children. -/
def shape : Node → Shape
  | node shape _ => shape

/-- The children, in the order of the text. -/
def children : Node → List Node
  | node _ children => children

/-- The node's own kind. -/
def kind (n : Node) : Kind := n.shape.kind

/-- The kind under which the parent lists the node. -/
def listedKind (n : Node) : Kind := n.shape.listedKind

/-- Whether the parent lists the node as a named one. -/
def listedNamed (n : Node) : Bool := n.shape.listedNamed

/-- Where the node begins. -/
def start (n : Node) : Position := n.shape.start

/-- Where the node ends. -/
def stop (n : Node) : Position := n.shape.stop

/-- Whether the node is a token that the parser has put in. -/
def missing (n : Node) : Bool := n.shape.missing

/-- Whether the node is or contains an error. -/
def hasError (n : Node) : Bool := n.shape.hasError

/-- The first child that plays a part. -/
def childWith (n : Node) (f : Field) : Option Node :=
  n.children.find? (·.shape.field == some f)

mutual

/-- How many nodes a tree has. -/
def count : Node → Nat
  | node _ children => 1 + countAll children

/-- How many nodes some trees have. -/
def countAll : List Node → Nat
  | [] => 0
  | n :: rest => n.count + countAll rest

end

mutual

/-- All nodes, each before its children. -/
def preorder : Node → List Node
  | node shape children => node shape children :: preorderAll children

/-- All nodes of some trees, each before its children. -/
def preorderAll : List Node → List Node
  | [] => []
  | n :: rest => n.preorder ++ preorderAll rest

end

end Node

end CallAtlas.Syntax
