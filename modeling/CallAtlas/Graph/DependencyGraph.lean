import CallAtlas.Graph.Names

/-!
# Dependency graphs

A dependency graph has names for nodes: of functions, of classes, and of what is used but not defined.
An edge leads from a definition to what it uses, and from a base class to the classes made from it.
-/

namespace CallAtlas.Graph

/-- What a name of a dependency graph stands for. -/
inductive NameKind where
  | function
  | classDefinition
  /-- Used, but not defined. -/
  | referenced
deriving DecidableEq, Inhabited, Repr

/-- A graph of names and the dependencies between them. -/
structure DependencyGraph where
  nodes : Std.ExtTreeMap String NameKind
  edges : EdgeSet
deriving BEq

namespace DependencyGraph

/-- No names and no dependencies. -/
def empty : DependencyGraph := ⟨∅, ∅⟩

instance : Inhabited DependencyGraph := ⟨empty⟩

/-- What a name of the graph stands for. -/
def kindOf? (g : DependencyGraph) (name : String) : Option NameKind := g.nodes[name]?

/-- Adds a name. A definition takes the place of a mere reference; otherwise a name keeps its kind. -/
def addNode (g : DependencyGraph) (name : String) (kind : NameKind) : DependencyGraph :=
  match g.kindOf? name with
  | none | some .referenced => { g with nodes := g.nodes.insert name kind }
  | some _ => g

/-- Adds a dependency. Names not yet in the graph are added as references. -/
def addEdge (g : DependencyGraph) (source target : String) : DependencyGraph :=
  let g := (g.addNode source .referenced).addNode target .referenced
  { g with edges := g.edges.insert ⟨source, target⟩ }

/-- Whether a dependency is in the graph. -/
def containsEdge (g : DependencyGraph) (source target : String) : Bool :=
  g.edges.contains ⟨source, target⟩

/-- How many names there are. -/
def nodeCount (g : DependencyGraph) : Nat := g.nodes.size

/-- How many dependencies there are. -/
def edgeCount (g : DependencyGraph) : Nat := g.edges.size

end DependencyGraph

end CallAtlas.Graph
