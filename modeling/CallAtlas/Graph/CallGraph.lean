import CallAtlas.Graph.CallSet

/-!
# Call graphs

A call graph has functions for nodes and calls for edges. What a node calls and what calls it is kept
beside the edges.
-/

namespace CallAtlas.Graph

/-- A graph of functions and the calls between them. -/
structure CallGraph where
  nodes : NameSet
  edges : EdgeSet
  /-- What each caller calls. -/
  outgoing : Std.ExtTreeMap String NameSet
  /-- What calls each callee. -/
  incoming : Std.ExtTreeMap String NameSet
deriving BEq

namespace CallGraph

/-- No functions and no calls. -/
def empty : CallGraph := ⟨∅, ∅, ∅, ∅⟩

instance : Inhabited CallGraph := ⟨empty⟩

/-- Adds a member to the set of a name. -/
def join (sets : Std.ExtTreeMap String NameSet) (name member : String) :
    Std.ExtTreeMap String NameSet :=
  sets.insert name ((sets.getD name ∅).insert member)

/-- Adds a function. -/
def addNode (g : CallGraph) (name : String) : CallGraph :=
  { g with nodes := g.nodes.insert name }

/-- Adds a call between two functions of the graph. Returns whether both are in the graph; if not, the
graph stays as it is. -/
def addEdge (g : CallGraph) (caller callee : String) : Bool × CallGraph :=
  if g.nodes.contains caller && g.nodes.contains callee then
    let edge : Edge := ⟨caller, callee⟩
    if g.edges.contains edge then (true, g)
    else
      (true,
        { g with
          edges := g.edges.insert edge
          outgoing := join g.outgoing caller callee
          incoming := join g.incoming callee caller })
  else (false, g)

/-- The graph of a call set. Every function is a node, even one that calls nothing. -/
def ofCallSet (c : CallSet) : CallGraph :=
  c.toList.foldl (fun g (caller, callees) =>
    callees.toList.foldl (fun g callee => (g.addEdge caller callee).2) g)
    (c.names.foldl addNode empty)

/-- How many functions there are. -/
def nodeCount (g : CallGraph) : Nat := g.nodes.size

/-- How many calls there are. -/
def edgeCount (g : CallGraph) : Nat := g.edges.size

/-- Whether a function is in the graph. -/
def containsNode (g : CallGraph) (name : String) : Bool := g.nodes.contains name

/-- Whether a call is in the graph. -/
def containsEdge (g : CallGraph) (caller callee : String) : Bool :=
  (g.outgoing.getD caller ∅).contains callee

/-- What a function calls, in ascending order. -/
def callees (g : CallGraph) (name : String) : List String := (g.outgoing.getD name ∅).toList

/-- What calls a function, in ascending order. -/
def callers (g : CallGraph) (name : String) : List String := (g.incoming.getD name ∅).toList

/-- By how many functions a function is called. -/
def inDegree (g : CallGraph) (name : String) : Nat := (g.incoming.getD name ∅).size

/-- How many functions a function calls. -/
def outDegree (g : CallGraph) (name : String) : Nat := (g.outgoing.getD name ∅).size

/-- The functions that call others but are not called, in ascending order. -/
def entryPoints (g : CallGraph) : List String :=
  g.nodes.toList.filter fun n => g.inDegree n == 0 && g.outDegree n > 0

/-- The functions that neither call nor are called, in ascending order. -/
def isolated (g : CallGraph) : List String :=
  g.nodes.toList.filter fun n => g.inDegree n == 0 && g.outDegree n == 0

end CallGraph

end CallAtlas.Graph
