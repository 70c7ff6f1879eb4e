import CallAtlas.Proofs.Dot.Reader
import CallAtlas.Proofs.Graph.Mentions

/-!
# Dependency graphs in DOT are read back

The text of a dependency graph tells classes from other names by their colour, and does not tell
functions from mere references. All else is read back from it: the settings, the names, which of them
are classes, and the dependencies. So two graphs have the same text in a style if and only if they agree
in these.
-/

namespace CallAtlas.Graph

open Dot

namespace DependencyGraph

/-- The colour of its own that a name is given: that of the classes, if it is one. -/
def colour? (style : GraphStyle) (g : DependencyGraph) (n : String) : Option String :=
  if g.kindOf? n = some .classDefinition then some style.classFillColor else none

/-- What the lines of the names and the dependencies of a graph say. -/
def statements (style : GraphStyle) (g : DependencyGraph) : List Statement :=
  g.nodes.keys.map (fun n => .node n (g.colour? style n)) ++
    g.edges.toList.map (fun e => .edge e.source e.target)

theorem line_node (style : GraphStyle) {g : DependencyGraph} {n : String} {kind : NameKind}
    (h : g.kindOf? n = some kind) :
    (Statement.node n (g.colour? style n)).line = nodeLine style n kind := by
  cases kind <;> simp [colour?, h, Statement.line, nodeLine]

theorem dotLines_eq (style : GraphStyle) (g : DependencyGraph) :
    g.dotLines style = linesOf style (g.statements style) := by
  have hnodes : g.nodes.toList.map (fun entry => nodeLine style entry.1 entry.2) =
      (g.nodes.keys.map fun n => Statement.node n (g.colour? style n)).map Statement.line := by
    rw [← Std.ExtTreeMap.map_fst_toList_eq_keys, List.map_map, List.map_map]
    refine List.map_congr_left fun entry hentry => ?_
    exact (line_node style (Std.ExtTreeMap.mem_toList_iff_getElem?_eq_some.1 hentry)).symm
  have hedges : g.edges.toList.map (fun e => edgeLine e.source e.target) =
      (g.edges.toList.map fun e => Statement.edge e.source e.target).map Statement.line := by
    rw [List.map_map]
    rfl
  calc g.dotLines style
      = header style ++ g.nodes.toList.map (fun entry => nodeLine style entry.1 entry.2) ++
          g.edges.toList.map (fun e => edgeLine e.source e.target) ++ [footer] := rfl
    _ = linesOf style (g.statements style) := by
        rw [linesOf, statements, List.map_append, hnodes, hedges, ← List.append_assoc]

theorem length_statements (style : GraphStyle) (g : DependencyGraph) :
    (g.statements style).length = g.nodeCount + g.edgeCount := by
  rw [statements, List.length_append, List.length_map, List.length_map,
    Std.ExtTreeMap.length_keys, Std.ExtTreeSet.length_toList, nodeCount, edgeCount]

theorem splitOn_toDot (style : GraphStyle) (g : DependencyGraph) :
    (g.toDot style).toList.splitOn '\n' = (linesOf style (g.statements style)).map String.toList := by
  rw [toDot, dotLines_eq, splitOn_linesOf]

theorem read_toDot (style : GraphStyle) (g : DependencyGraph) :
    read (g.toDot style) = some (documentOf style (g.statements style)) := by
  rw [toDot, dotLines_eq, read_linesOf]

theorem keys_ascending (g : DependencyGraph) : g.nodes.keys.Pairwise (· < ·) :=
  Std.ExtTreeMap.ordered_keys.imp fun h => (compare_eq_lt_iff _ _).1 h

/-! ## What the text of a graph shows -/

theorem filterMap_nodeOf (style : GraphStyle) (g : DependencyGraph) :
    (g.statements style).filterMap nodeOf? = g.nodes.keys := by
  simp [statements, List.filterMap_append, List.filterMap_map, Function.comp_def, nodeOf?]

theorem filterMap_edgeOf (style : GraphStyle) (g : DependencyGraph) :
    (g.statements style).filterMap edgeOf? = g.edges.toList := by
  simp [statements, List.filterMap_append, List.filterMap_map, Function.comp_def, edgeOf?]

theorem colour?_eq_iff {style : GraphStyle} {g k : DependencyGraph} {n : String} :
    g.colour? style n = k.colour? style n ↔
      (g.kindOf? n = some .classDefinition ↔ k.kindOf? n = some .classDefinition) := by
  rw [colour?, colour?]
  by_cases hg : g.kindOf? n = some .classDefinition <;>
    by_cases hk : k.kindOf? n = some .classDefinition <;> simp [hg, hk]

theorem node_mem_statements {style : GraphStyle} {g : DependencyGraph} {n : String}
    {colour : Option String} : .node n colour ∈ g.statements style ↔
      n ∈ g.nodes ∧ g.colour? style n = colour := by
  simp only [statements, List.mem_append, List.mem_map, Statement.node.injEq, reduceCtorEq,
    and_false, exists_false, or_false, Std.ExtTreeMap.mem_keys]
  constructor
  · rintro ⟨_, hn, rfl, rfl⟩
    exact ⟨hn, rfl⟩
  · rintro ⟨hn, rfl⟩
    exact ⟨n, hn, rfl, rfl⟩

/-- The lines show the names, the classes among them and the dependencies, and nothing else. -/
theorem statements_eq_iff {style : GraphStyle} {g k : DependencyGraph} :
    g.statements style = k.statements style ↔ g.nodes.keys = k.nodes.keys ∧
      (∀ n, g.kindOf? n = some .classDefinition ↔ k.kindOf? n = some .classDefinition) ∧
      g.edges = k.edges := by
  constructor
  · intro h
    have hkeys : g.nodes.keys = k.nodes.keys := by
      rw [← filterMap_nodeOf style g, h, filterMap_nodeOf]
    have hedges : g.edges = k.edges := by
      rw [← Std.ExtTreeSet.toList_inj, ← filterMap_edgeOf style g, h, filterMap_edgeOf]
    refine ⟨hkeys, fun n => ?_, hedges⟩
    by_cases hn : n ∈ g.nodes
    · have hline : .node n (g.colour? style n) ∈ g.statements style :=
        node_mem_statements.2 ⟨hn, rfl⟩
      rw [h] at hline
      exact colour?_eq_iff.1 (node_mem_statements.1 hline).2.symm
    · -- a name that is not there is a class of neither graph
      have hn' : n ∉ k.nodes := by rwa [← Std.ExtTreeMap.mem_keys, ← hkeys, Std.ExtTreeMap.mem_keys]
      rw [mem_nodes_iff, not_not] at hn hn'
      rw [hn, hn']
  · rintro ⟨hkeys, hclasses, hedges⟩
    have hcolour : g.colour? style = k.colour? style := funext fun n => colour?_eq_iff.2 (hclasses n)
    rw [statements, statements, hkeys, hcolour, hedges]

theorem toDot_eq_iff {style : GraphStyle} {g k : DependencyGraph} :
    g.toDot style = k.toDot style ↔ g.statements style = k.statements style := by
  constructor
  · intro h
    have hread := g.read_toDot style
    rw [h, k.read_toDot style] at hread
    exact (congrArg Document.statements (Option.some.inj hread)).symm
  · intro h
    rw [toDot, toDot, dotLines_eq, dotLines_eq, h]

/-- Whatever names and settings there are, the text of a dependency graph under construction has one
line for each name and each dependency, from which the reader recovers the settings, then the names in
ascending order, where the classes and only these have the colour of classes, and then the dependencies
in ascending order, with their ends among the names. Two graphs have the same text in a style exactly if
they have the same names, the same classes and the same dependencies. -/
theorem toDot_lossless_up_to_kinds (style : GraphStyle) (steps : List Mention) :
    let g := build steps
    ((g.toDot style).toList.splitOn '\n').length = 3 + g.nodeCount + g.edgeCount + 1 ∧
    read (g.toDot style) = some
      { name := style.name
        rankdir := style.rankdir
        nodeShape := style.nodeShape
        nodeStyle := style.nodeStyle
        fillColor := style.fillColor
        statements :=
          g.nodes.keys.map (fun n => .node n
            (if g.kindOf? n = some .classDefinition then some style.classFillColor else none)) ++
          g.edges.toList.map (fun e => .edge e.source e.target) } ∧
    g.nodes.keys.Pairwise (· < ·) ∧
    g.edges.toList.Pairwise
      (fun e f => e.source < f.source ∨ e.source = f.source ∧ e.target < f.target) ∧
    (∀ e ∈ g.edges.toList, e.source ∈ g.nodes.keys ∧ e.target ∈ g.nodes.keys) ∧
    (∀ others, (build others).toDot style = g.toDot style ↔
      (build others).nodes.keys = g.nodes.keys ∧
      (∀ n, (build others).kindOf? n = some .classDefinition ↔
        g.kindOf? n = some .classDefinition) ∧
      (build others).edges = g.edges) := by
  intro g
  refine ⟨?_, g.read_toDot style, g.keys_ascending, EdgeSet.ascending _, ?_, fun others => ?_⟩
  · rw [splitOn_toDot, List.length_map, length_linesOf, length_statements, ← Nat.add_assoc]
  · intro e he
    rw [Std.ExtTreeMap.mem_keys, Std.ExtTreeMap.mem_keys]
    exact ends_mem_build steps (Std.ExtTreeSet.mem_toList.1 he)
  · rw [toDot_eq_iff, statements_eq_iff]

end DependencyGraph

end CallAtlas.Graph
