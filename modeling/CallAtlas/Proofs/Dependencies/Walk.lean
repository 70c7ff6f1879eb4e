import CallAtlas.Dependencies
import CallAtlas.Proofs.Graph.Mentions
import CallAtlas.Proofs.Syntax.Place

/-!
# The walk that gathers dependencies

The walk comes to the places of a tree in their order and adds at each what the node there defines or
uses. The name of the innermost definition around a place is all that it has to remember.
-/

namespace CallAtlas

open CallAtlas.Graph Syntax Text

/-- The name that a node defines, with its kind. -/
def Syntax.Node.definition? (source : Source) (n : Node) : Option (String × NameKind) :=
  match n.construct with
  | .function name _ => some (name.text source, .function)
  | .classDefinition name _ => some (name.text source, .classDefinition)
  | _ => none

namespace Dependencies

/-- The name of the innermost definition among some nodes, the outermost of which comes first. -/
def innermost (source : Source) (around : List Node) : Option String :=
  (around.filterMap fun m => (m.definition? source).map (·.1)).getLast?

/-- What a node adds to the graph inside a definition. -/
def mentionsOf (source : Source) (scope : Option String) (n : Node) : List Mention :=
  match n.construct with
  | .function name _ => [.node (name.text source) .function]
  | .classDefinition name superclasses =>
    .node (name.text source) .classDefinition ::
      (match superclasses with
      | some s => s.baseNames source
      | none => []).map fun base => .edge base (name.text source)
  | .call function =>
    (scope.bind fun caller => (function.callee source).looseName.map (.edge caller)).toList
  | .other => []

/-- What is added at a place of a tree. `around` are the nodes around the tree, from the outermost
inwards. -/
def mentionsAt (source : Source) (around : List Node) (n : Node) (p : Place) : List Mention :=
  match n.nodeAt? p with
  | some m => mentionsOf source (innermost source (around ++ n.above p)) m
  | none => []

/-- What is added in a tree. -/
def mentionsIn (source : Source) (around : List Node) (n : Node) : List Mention :=
  n.places.flatMap (mentionsAt source around n)

theorem innermost_concat (source : Source) (around : List Node) (n : Node) :
    innermost source (around ++ [n]) =
      ((n.definition? source).map (·.1)).or (innermost source around) := by
  rw [innermost, innermost, List.filterMap_append, List.getLast?_append]
  cases h : n.definition? source <;> simp [h]

theorem mentionsAt_cons {source : Source} {around : List Node} {n c : Node} {i : Nat}
    (h : n.children[i]? = some c) (p : Place) :
    mentionsAt source around n (i :: p) = mentionsAt source (around ++ [n]) c p := by
  rw [mentionsAt, mentionsAt, Node.nodeAt?_cons h, Node.above_cons h, List.append_cons]

theorem mentionsIn_eq (source : Source) (around : List Node) (n : Node) :
    mentionsIn source around n = mentionsOf source (innermost source around) n ++
      n.children.flatMap (mentionsIn source (around ++ [n])) := by
  have hroot : mentionsAt source around n [] = mentionsOf source (innermost source around) n := by
    rw [mentionsAt, Node.nodeAt?_nil, Node.above_nil, List.append_nil]
  rw [mentionsIn, Node.flatMap_places fun _ _ hc p => mentionsAt_cons hc p, hroot]
  rfl

theorem foldl_addEdge (graph : DependencyGraph) (bases : List String) (name : String) :
    bases.foldl (fun g base => g.addEdge base name) graph =
      (bases.map fun base => Mention.edge base name).foldl DependencyGraph.add graph := by
  rw [List.foldl_map]
  rfl

theorem visitAll_eq {source : Source} {scope : Option String} {around : List Node} {cs : List Node}
    (h : ∀ c ∈ cs, ∀ graph, visit source scope c graph =
      (mentionsIn source around c).foldl DependencyGraph.add graph)
    (graph : DependencyGraph) :
    visitAll source scope cs graph =
      (cs.flatMap (mentionsIn source around)).foldl DependencyGraph.add graph := by
  induction cs generalizing graph with
  | nil => rfl
  | cons c cs ih =>
    rw [visitAll, ih fun d hd => h d (by simp [hd]), h c (by simp), List.flatMap_cons,
      List.foldl_append]

theorem visit_eq (source : Source) (n : Node) : ∀ around graph,
    visit source (innermost source around) n graph =
      (mentionsIn source around n).foldl DependencyGraph.add graph := by
  induction n using Node.induct with
  | h shape children ih =>
    intro around graph
    -- Inside a definition its own name is the innermost one, elsewhere nothing changes.
    have hchildren : ∀ graph', visitAll source
        (innermost source (around ++ [.node shape children])) children graph' =
        (children.flatMap (mentionsIn source (around ++ [.node shape children]))).foldl
          DependencyGraph.add graph' :=
      visitAll_eq fun c hc graph' => ih c hc _ graph'
    rw [mentionsIn_eq, List.foldl_append, Node.children, ← hchildren, innermost_concat,
      Node.definition?, mentionsOf, visit]
    cases (Node.node shape children).construct with
    | function name isAsync => rfl
    | classDefinition name superclasses =>
      simp only [foldl_addEdge]
      rfl
    | call function =>
      simp only [Option.map_none, Option.none_or]
      cases innermost source around <;> cases (function.callee source).looseName <;> rfl
    | other => rfl

theorem ofTree_eq_build (t : Tree) : ofTree t = .build (mentionsIn t.source [] t.root) :=
  visit_eq t.source t.root [] .empty

end Dependencies

end CallAtlas
