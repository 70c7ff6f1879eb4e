import CallAtlas.Graph.Cycles

/-!
# Statistics of a call graph
-/

namespace CallAtlas.Graph

/-- Numbers that sum up a call graph. -/
structure Statistics where
  totalFunctions : Nat
  totalCalls : Nat
  entryPoints : Nat
  isolated : Nat
  selfCalls : Nat
  cycles : Nat
  maxInDegree : Nat
  maxOutDegree : Nat
deriving DecidableEq, Inhabited, Repr

/-- The statistics of a call graph. -/
def CallGraph.statistics (g : CallGraph) : Statistics where
  totalFunctions := g.nodeCount
  totalCalls := g.edgeCount
  entryPoints := g.entryPoints.length
  isolated := g.isolated.length
  selfCalls := (g.edges.toList.filter fun e => e.source == e.target).length
  cycles := g.cycles.length
  maxInDegree := g.nodes.toList.foldl (fun m n => max m (g.inDegree n)) 0
  maxOutDegree := g.nodes.toList.foldl (fun m n => max m (g.outDegree n)) 0

end CallAtlas.Graph
