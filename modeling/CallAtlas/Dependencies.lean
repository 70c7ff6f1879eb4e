import CallAtlas.Graph.DependencyGraph
import CallAtlas.Syntax.Construct
import CallAtlas.Syntax.Tree

/-!
# Dependencies

What the functions and classes of a program use. Unlike the calls between functions this takes members
of objects by their names, and names that the program does not define.
-/

namespace CallAtlas

open CallAtlas.Graph Syntax Text

namespace Dependencies

mutual

/-- Adds the dependencies in a tree to a graph. `scope` is the name of the innermost definition around
the tree. -/
def visit (source : Source) (scope : Option String) : Node → DependencyGraph → DependencyGraph
  | .node shape children, graph =>
    let here := Node.node shape children
    match here.construct with
    | .function name _ =>
      let name := name.text source
      visitAll source (some name) children (graph.addNode name .function)
    | .classDefinition name superclasses =>
      let name := name.text source
      let bases := match superclasses with
        | some s => s.baseNames source
        | none => []
      visitAll source (some name) children
        (bases.foldl (fun g base => g.addEdge base name) (graph.addNode name .classDefinition))
    | .call function =>
      visitAll source scope children
        (match scope, (function.callee source).looseName with
        | some caller, some callee => graph.addEdge caller callee
        | _, _ => graph)
    | .other => visitAll source scope children graph

/-- Adds the dependencies in some trees to a graph. -/
def visitAll (source : Source) (scope : Option String) :
    List Node → DependencyGraph → DependencyGraph
  | [], graph => graph
  | n :: rest, graph => visitAll source scope rest (visit source scope n graph)

end

/-- The dependencies in an accepted program. -/
def ofTree (t : Tree) : DependencyGraph := visit t.source none t.root .empty

/-- The dependencies in a program. -/
def ofSource (grammar : Grammar) (settings : ParsingSettings) (source : Source) :
    Except Failure DependencyGraph :=
  match Tree.parse grammar settings source with
  | .error failure => .error failure
  | .ok tree => .ok (ofTree tree)

end Dependencies

end CallAtlas
