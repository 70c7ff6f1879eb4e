import CallAtlas.Dependencies
import CallAtlas.Proofs.Extraction.Definitions
import CallAtlas.Proofs.Syntax.Nesting

/-!
# The analyses within the limit on the depth

The walk that records definitions, the one that gathers calls and the one that gathers dependencies go
through all nodes of a tree. With a bound on the nesting of their calls they give up exactly on trees
with more levels. A program that is accepted has no more levels than its limit allows, nor have its
definitions and their decorators, so that the analyses never give up.
-/

namespace CallAtlas

open CallAtlas.Graph Syntax Text

namespace Extraction

/-! ## Definitions -/

/-- The walk that records definitions. A node is told the number of definitions around it and the node
that holds it. -/
def recording (source : Source) : Node.Walk (Nat × Option Node) (Array Definition) where
  told s n :=
    match n.construct with
    | .function _ _ => (s.1 + 1, some n)
    | _ => (s.1, some n)
  gathered s n found :=
    match n.construct with
    | .function name isAsync =>
      found.push
        { node := n, decorators := Node.decorators s.2,
          record := recordOf source n name isAsync s.1 }
    | _ => found

theorem collectAll_eq_foldl (source : Source) (depth : Nat) (parent : Node) (cs : List Node)
    (found : Array Definition) :
    collectAll source depth parent cs found =
      cs.foldl (fun found c => collect source depth (some parent) c found) found := by
  induction cs generalizing found with
  | nil => rfl
  | cons c cs ih => rw [collectAll, ih, List.foldl_cons]

theorem madeBy_collect (source : Source) :
    (recording source).MadeBy fun s => collect source s.1 s.2 := by
  rintro ⟨depth, parent⟩ ⟨shape, children⟩ found
  simp only [collect, collectAll_eq_foldl, recording, Node.children]
  cases (Node.node shape children).construct <;> rfl

/-- `collect` by calls that nest no deeper than a bound. -/
def collectWithin (source : Source) (nesting depth : Nat) (parent : Option Node) (n : Node)
    (found : Array Definition) : Option (Array Definition) :=
  (recording source).runWithin nesting (depth, parent) n found

/-- `definitions` with a bound on the nesting of its walk. -/
def definitionsWithin (nesting : Nat) (t : Tree) : Option (List Definition) :=
  (collectWithin t.source nesting 0 none t.root #[]).map Array.toList

/-! ## Calls -/

/-- The walk that gathers calls. -/
def calling (source : Source) (known : CallSet) : Node.Walk Unit NameSet where
  told _ _ := ()
  gathered _ n found :=
    match calledBy source known n with
    | some name => found.insert name
    | none => found

theorem addCallsOfAll_eq_foldl (source : Source) (known : CallSet) (cs : List Node)
    (found : NameSet) :
    addCallsOfAll source known cs found =
      cs.foldl (fun found c => addCalls source known c found) found := by
  induction cs generalizing found with
  | nil => rfl
  | cons c cs ih => rw [addCallsOfAll, ih, List.foldl_cons]

theorem madeBy_addCalls (source : Source) (known : CallSet) :
    (calling source known).MadeBy fun _ => addCalls source known := by
  rintro - ⟨shape, children⟩ found
  simp only [addCalls, addCallsOfAll_eq_foldl]
  rfl

/-- `addCalls` by calls that nest no deeper than a bound. -/
def addCallsWithin (source : Source) (known : CallSet) (nesting : Nat) (n : Node)
    (found : NameSet) : Option NameSet :=
  (calling source known).runWithin nesting () n found

/-- `calleesOf` with a bound on the nesting of each of its walks. -/
def calleesOfWithin (nesting : Nat) (source : Source) (known : CallSet) (d : Definition) :
    Option NameSet := do
  let found ← d.decorators.foldlM
    (fun found n => addCallsWithin source known nesting n found) ∅
  addCallsWithin source known nesting d.node found

/-- `ofTree` with a bound on the nesting of each of its walks. -/
def ofTreeWithin (nesting : Nat) (policy : DuplicatePolicy) (t : Tree) :
    Option (Except Failure Extraction) := do
  let found ← definitionsWithin nesting t
  let known := found.foldl (fun c d => c.insertFunction d.record.name) CallSet.empty
  let resolved ← found.mapM fun d =>
    (calleesOfWithin nesting t.source known d).map (d.record, ·)
  some <| match assignCalls policy ∅ resolved known with
    | .error failure => .error failure
    | .ok calls =>
      .ok { functions := found.map (·.record), calls, contentHash := Digest.hex t.source.bytes }

/-- What the second walk goes through is part of the tree. -/
theorem within_of_mem_definitions {t : Tree} {d : Definition} (h : d ∈ definitions t) :
    Node.Within d.node t.root ∧ ∀ n ∈ d.decorators, Node.Within n t.root := by
  rw [definitions_eq] at h
  obtain ⟨p, -, hp⟩ := List.mem_filterMap.1 h
  obtain ⟨m, name, isAsync, hm, -, rfl⟩ := exists_of_definitionOf hp
  refine ⟨⟨p, hm⟩, fun n hn => ?_⟩
  obtain ⟨q, -, parent, -, hparent, -, hmem, -⟩ := (Node.mem_decorators_iff hm).1 hn
  obtain ⟨j, hj⟩ := List.mem_iff_getElem?.1 hmem
  refine ⟨q ++ [j], ?_⟩
  rw [Node.nodeAt?_append, hparent, Option.bind_some, Node.nodeAt?_cons hj, Node.nodeAt?_nil]

theorem definitionsWithin_eq {nesting : Nat} {t : Tree} (h : t.root.levels ≤ nesting) :
    definitionsWithin nesting t = some (definitions t) := by
  rw [definitionsWithin, collectWithin, (madeBy_collect t.source).runWithin_eq, if_pos h]
  rfl

theorem calleesOfWithin_eq {nesting : Nat} {source : Source} (known : CallSet) {d : Definition}
    (hnode : d.node.levels ≤ nesting) (hdecorators : ∀ n ∈ d.decorators, n.levels ≤ nesting) :
    calleesOfWithin nesting source known d = some (calleesOf source known d) := by
  have hwalk := (madeBy_addCalls source known).runWithin_eq nesting ()
  have hall := Node.Walk.foldlM_within (fun c (_ : c ∈ d.decorators) => hwalk c) ∅
  rw [if_pos (Node.levelsAll_le_iff.2 hdecorators)] at hall
  rw [calleesOfWithin, calleesOf, addCallsOfAll_eq_foldl]
  simp only [addCallsWithin, hall, Option.bind_eq_bind, Option.bind_some]
  rw [hwalk, if_pos hnode]

theorem mapM_eq_map {α β : Type} {f : α → Option β} {g : α → β} {l : List α}
    (h : ∀ a ∈ l, f a = some (g a)) : l.mapM f = some (l.map g) := by
  induction l with
  | nil => rfl
  | cons a l ih =>
    rw [List.mapM_cons, h a (by simp), ih fun b hb => h b (by simp [hb])]
    rfl

/-- A tree is extracted by calls that nest as deep as it has levels. -/
theorem ofTreeWithin_eq {nesting : Nat} (policy : DuplicatePolicy) {t : Tree}
    (h : t.root.levels ≤ nesting) : ofTreeWithin nesting policy t = some (ofTree policy t) := by
  have hcallees : ∀ known, ∀ d ∈ definitions t,
      (calleesOfWithin nesting t.source known d).map (d.record, ·) =
        some (d.record, calleesOf t.source known d) := by
    intro known d hd
    obtain ⟨hnode, hdecorators⟩ := within_of_mem_definitions hd
    rw [calleesOfWithin_eq known ((Node.levels_le_of_within hnode).trans h)
      fun n hn => (Node.levels_le_of_within (hdecorators n hn)).trans h]
    rfl
  rw [ofTreeWithin, definitionsWithin_eq h]
  simp only [Option.bind_eq_bind, Option.bind_some]
  rw [mapM_eq_map (hcallees _)]
  rfl

end Extraction

namespace Dependencies

/-- The walk that gathers dependencies. A node is told the name of the innermost definition around
it. -/
def linking (source : Source) : Node.Walk (Option String) DependencyGraph where
  told scope n :=
    match n.construct with
    | .function name _ => some (name.text source)
    | .classDefinition name _ => some (name.text source)
    | _ => scope
  gathered scope n graph :=
    match n.construct with
    | .function name _ => graph.addNode (name.text source) .function
    | .classDefinition name superclasses =>
      let bases := match superclasses with
        | some s => s.baseNames source
        | none => []
      bases.foldl (fun g base => g.addEdge base (name.text source))
        (graph.addNode (name.text source) .classDefinition)
    | .call function =>
      match scope, (function.callee source).looseName with
      | some caller, some callee => graph.addEdge caller callee
      | _, _ => graph
    | .other => graph

theorem visitAll_eq_foldl (source : Source) (scope : Option String) (cs : List Node)
    (graph : DependencyGraph) :
    visitAll source scope cs graph =
      cs.foldl (fun graph c => visit source scope c graph) graph := by
  induction cs generalizing graph with
  | nil => rfl
  | cons c cs ih => rw [visitAll, ih, List.foldl_cons]

theorem madeBy_visit (source : Source) : (linking source).MadeBy (visit source) := by
  rintro scope ⟨shape, children⟩ graph
  simp only [visit, visitAll_eq_foldl, linking, Node.children]
  cases (Node.node shape children).construct <;> rfl

/-- `visit` by calls that nest no deeper than a bound. -/
def visitWithin (source : Source) (nesting : Nat) (scope : Option String) (n : Node)
    (graph : DependencyGraph) : Option DependencyGraph :=
  (linking source).runWithin nesting scope n graph

/-- `ofTree` with a bound on the nesting of its walk. -/
def ofTreeWithin (nesting : Nat) (t : Tree) : Option DependencyGraph :=
  visitWithin t.source nesting none t.root .empty

theorem ofTreeWithin_eq {nesting : Nat} {t : Tree} (h : t.root.levels ≤ nesting) :
    ofTreeWithin nesting t = some (ofTree t) := by
  rw [ofTreeWithin, visitWithin, (madeBy_visit t.source).runWithin_eq, if_pos h, ofTree]

end Dependencies

/-- The walks with a bound on their nesting do what the walks do on trees without a node as deep as the
bound. Those that go through all nodes give up on all other trees. -/
structure WalksBounded (source : Source) (nesting : Nat) (n : Node) : Prop where
  levels : n.levels ≤ nesting ↔ ∀ p m, n.nodeAt? p = some m → p.length < nesting
  firstError : n.levels ≤ nesting → n.firstErrorWithin source nesting = some (n.firstError source)
  collect : ∀ depth parent found, Extraction.collectWithin source nesting depth parent n found =
    if n.levels ≤ nesting then some (Extraction.collect source depth parent n found) else none
  addCalls : ∀ known found, Extraction.addCallsWithin source known nesting n found =
    if n.levels ≤ nesting then some (Extraction.addCalls source known n found) else none
  visit : ∀ scope graph, Dependencies.visitWithin source nesting scope n graph =
    if n.levels ≤ nesting then some (Dependencies.visit source scope n graph) else none

/-- No walk through the tree of a program nests its calls beyond the limit on the depth. -/
structure WalksWithinLimit (grammar : Grammar) (settings : ParsingSettings) (source : Source) :
    Prop where
  parse : Tree.parseWithin (settings.maxDepth + 1) grammar settings source =
    some (Tree.parse grammar settings source)
  extraction : ∀ t, Tree.parse grammar settings source = .ok t → ∀ policy,
    Extraction.ofTreeWithin (settings.maxDepth + 1) policy t = some (Extraction.ofTree policy t)
  dependencies : ∀ t, Tree.parse grammar settings source = .ok t →
    Dependencies.ofTreeWithin (settings.maxDepth + 1) t = some (Dependencies.ofTree t)
  /-- A tree that is too deep is refused in the same way though every walk gives up at once. -/
  unwalked : ∀ root, grammar source = some root →
    (∃ p m, root.nodeAt? p = some m ∧ settings.maxDepth < p.length) →
    (∀ t, Tree.parse grammar settings source ≠ .ok t) ∧
      ∀ nesting, Tree.parseWithin nesting grammar settings source =
        some (Tree.parse grammar settings source)

theorem walksBounded (source : Source) (nesting : Nat) (n : Node) :
    WalksBounded source nesting n where
  levels := Node.levels_le_iff
  firstError := Node.firstErrorWithin_eq source
  collect depth parent found :=
    (Extraction.madeBy_collect source).runWithin_eq nesting (depth, parent) n found
  addCalls known found :=
    (Extraction.madeBy_addCalls source known).runWithin_eq nesting () n found
  visit scope graph := (Dependencies.madeBy_visit source).runWithin_eq nesting scope n graph

/-- The limit on the depth bounds the walks: whatever the grammar, the settings and the program are, the
walks by calls that nest no deeper than the limit come to the same end and never give up, and on a
tree with a deeper node no walk is made. -/
theorem walks_within_limit (grammar : Grammar) (settings : ParsingSettings) (source : Source) :
    WalksWithinLimit grammar settings source ∧ ∀ nesting n, WalksBounded source nesting n := by
  refine ⟨⟨Tree.parseWithin_maxDepth grammar settings source, ?_, ?_, ?_⟩, walksBounded source⟩
  · intro t ht policy
    exact Extraction.ofTreeWithin_eq policy (Tree.levels_of_parse ht)
  · intro t ht
    exact Dependencies.ofTreeWithin_eq (Tree.levels_of_parse ht)
  · intro root hroot hdeep
    refine ⟨fun t ht => ?_, Tree.parseWithin_of_deep hroot hdeep⟩
    obtain ⟨p, m, hm, hlt⟩ := hdeep
    obtain ⟨rfl, -, hshallow, -⟩ := ((Tree.judged_parse hroot settings).accepted t).1 ht
    exact absurd (hshallow p m hm) (Nat.not_le.2 hlt)

end CallAtlas
