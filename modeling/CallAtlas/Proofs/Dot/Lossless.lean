import CallAtlas.Proofs.Dot.Reader
import CallAtlas.Proofs.Graph.Queries

/-!
# Call graphs in DOT are read back

The text of a call graph has a line for each node and each edge beside the header and the footer, and
the reader finds the settings, the nodes and the edges in it. So no name can pass for a line of its own,
and two graphs with the same text are the same.
-/

namespace CallAtlas.Graph

open Dot

/-- What the lines of the nodes and the edges of a graph say. -/
def CallGraph.statements (g : CallGraph) : List Statement :=
  g.nodes.toList.map (fun n => .node n none) ++
    g.edges.toList.map (fun e => .edge e.source e.target)

/-- What the text of a graph says. -/
def CallGraph.document (style : GraphStyle) (g : CallGraph) : Document where
  name := style.name
  rankdir := style.rankdir
  nodeShape := style.nodeShape
  nodeStyle := style.nodeStyle
  fillColor := style.fillColor
  statements := g.statements

namespace CallGraph

theorem dotLines_eq (style : GraphStyle) (g : CallGraph) :
    g.dotLines style = linesOf style g.statements := by
  rw [dotLines, linesOf, statements, List.map_append, List.map_map, List.map_map,
    ← List.append_assoc]
  rfl

theorem splitOn_toDot (style : GraphStyle) (g : CallGraph) :
    (g.toDot style).toList.splitOn '\n' = (g.dotLines style).map String.toList := by
  rw [toDot, dotLines_eq, splitOn_linesOf]

theorem length_dotLines (style : GraphStyle) (g : CallGraph) :
    (g.dotLines style).length = 3 + g.nodeCount + g.edgeCount + 1 := by
  rw [dotLines_eq, length_linesOf, statements, List.length_append, List.length_map, List.length_map,
    Std.ExtTreeSet.length_toList, Std.ExtTreeSet.length_toList, nodeCount, edgeCount, ← Nat.add_assoc]

theorem read_toDot (style : GraphStyle) (g : CallGraph) :
    read (g.toDot style) = some (g.document style) := by
  rw [toDot, dotLines_eq, read_linesOf]
  rfl

/-! ## Texts determine graphs -/

theorem filterMap_nodeOf (g : CallGraph) : g.statements.filterMap nodeOf? = g.nodes.toList := by
  simp [statements, List.filterMap_append, List.filterMap_map, Function.comp_def, nodeOf?]

theorem filterMap_edgeOf (g : CallGraph) : g.statements.filterMap edgeOf? = g.edges.toList := by
  simp [statements, List.filterMap_append, List.filterMap_map, Function.comp_def, edgeOf?]

theorem eq_of_statements {g k : CallGraph} (hg : g.Consistent) (hk : k.Consistent)
    (h : g.statements = k.statements) : g = k := by
  refine hg.ext hk ?_ ?_
  · rw [← Std.ExtTreeSet.toList_inj, ← filterMap_nodeOf, h, filterMap_nodeOf]
  · rw [← Std.ExtTreeSet.toList_inj, ← filterMap_edgeOf, h, filterMap_edgeOf]

/-- Whatever names and settings there are, the text of a graph under construction has one line for each
node and each edge, from which the reader recovers the settings, then the nodes and then the edges, both
in ascending order and with the ends of each edge among the nodes. Graphs with the same text are the
same and have the same settings. -/
theorem toDot_lossless (style : GraphStyle) (steps : List Insertion) :
    let g := build steps
    ((g.toDot style).toList.splitOn '\n').length = 3 + g.nodeCount + g.edgeCount + 1 ∧
    read (g.toDot style) = some
      { name := style.name
        rankdir := style.rankdir
        nodeShape := style.nodeShape
        nodeStyle := style.nodeStyle
        fillColor := style.fillColor
        statements := g.nodes.toList.map (fun n => .node n none) ++
          g.edges.toList.map (fun e => .edge e.source e.target) } ∧
    g.nodes.toList.Pairwise (· < ·) ∧
    g.edges.toList.Pairwise
      (fun e f => e.source < f.source ∨ e.source = f.source ∧ e.target < f.target) ∧
    (∀ e ∈ g.edges.toList, e.source ∈ g.nodes.toList ∧ e.target ∈ g.nodes.toList) ∧
    (∀ otherStyle otherSteps, (build otherSteps).toDot otherStyle = g.toDot style →
      build otherSteps = g ∧ otherStyle.name = style.name ∧ otherStyle.rankdir = style.rankdir ∧
      otherStyle.nodeShape = style.nodeShape ∧ otherStyle.nodeStyle = style.nodeStyle ∧
      otherStyle.fillColor = style.fillColor) := by
  intro g
  have hg : g.Consistent := build_consistent steps
  refine ⟨?_, g.read_toDot style, NameSet.ascending _, EdgeSet.ascending _, ?_, ?_⟩
  · rw [splitOn_toDot, List.length_map, length_dotLines]
  · intro e he
    obtain ⟨hs, ht⟩ := hg.ends (Std.ExtTreeSet.mem_toList.1 he)
    exact ⟨Std.ExtTreeSet.mem_toList.2 hs, Std.ExtTreeSet.mem_toList.2 ht⟩
  · intro otherStyle otherSteps htext
    have hdoc : (build otherSteps).document otherStyle = g.document style := by
      have hread := (build otherSteps).read_toDot otherStyle
      rw [htext, g.read_toDot style] at hread
      exact (Option.some.inj hread).symm
    obtain ⟨hname, hrankdir, hshape, hstyle, hcolor, hstatements⟩ := Document.mk.inj hdoc
    exact ⟨eq_of_statements (build_consistent otherSteps) hg hstatements, hname, hrankdir, hshape,
      hstyle, hcolor⟩

end CallGraph

end CallAtlas.Graph
