import CallAtlas.Command.Host
import CallAtlas.Failure
import CallAtlas.Graph.Dot

/-!
# Graphs in files
-/

namespace CallAtlas.Graph.CallGraph

variable {m : Type → Type} [Monad m] [Host m]

/-- Keeps a call graph in a file, in DOT. -/
def save (style : GraphStyle) (g : CallGraph) (path : String) : m (Except Failure Unit) := do
  match ← Host.writeText path (g.toDot style) with
  | .ok () => return .ok ()
  | .error e => return .error (.file e)

end CallAtlas.Graph.CallGraph
