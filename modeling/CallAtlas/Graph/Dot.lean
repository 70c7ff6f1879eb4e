import CallAtlas.Graph.CallGraph
import CallAtlas.Graph.DependencyGraph
import CallAtlas.Settings.Basic

/-!
# Graphs in DOT

A graph is written line by line: its name, its settings, its nodes and its edges, both in ascending
order. What comes from outside stands between quotation marks, where quotation marks, backslashes and
line breaks are escaped.
-/

namespace CallAtlas

namespace Dot

/-- Puts a text in the place of a character. -/
def substitute (c : Char) (replacement cs : List Char) : List Char :=
  cs.flatMap fun d => if d = c then replacement else [d]

/-- A text as it is written between quotation marks. The backslashes must come first, since the other
two substitutions bring new ones. -/
def escape (cs : List Char) : List Char :=
  substitute '\n' ['\\', 'n'] (substitute '"' ['\\', '"'] (substitute '\\' ['\\', '\\'] cs))

/-- A text between quotation marks. -/
def quote (s : String) : String := "\"" ++ String.ofList (escape s.toList) ++ "\""

/-- Whether a character may stand in a name without quotation marks. -/
def isNameChar (c : Char) : Bool := c.isAlphanum || c == '_'

/-- Whether a text may stand without quotation marks: a name that does not begin with a digit. -/
def isPlain (s : String) : Bool :=
  match s.toList with
  | [] => false
  | c :: rest => !c.isDigit && (c :: rest).all isNameChar

/-- A text, between quotation marks if it needs them. -/
def quoteUnlessPlain (s : String) : String := if isPlain s then s else quote s

/-- The lines before the nodes. -/
def header (style : GraphStyle) : List String :=
  ["digraph " ++ quote style.name ++ " \x7b",
    "  rankdir=" ++ quote style.rankdir ++ ";",
    "  node [shape=" ++ quoteUnlessPlain style.nodeShape ++ ", style=" ++ quote style.nodeStyle ++
      ", fillcolor=" ++ quote style.fillColor ++ "];"]

/-- The line of a node. -/
def nodeLine (name : String) : String := "  " ++ quote name ++ ";"

/-- The line of a node with a colour of its own. -/
def colouredNodeLine (name colour : String) : String :=
  "  " ++ quote name ++ " [fillcolor=" ++ quote colour ++ "];"

/-- The line of an edge. -/
def edgeLine (source target : String) : String :=
  "  " ++ quote source ++ " -> " ++ quote target ++ ";"

/-- The line after the edges. -/
def footer : String := "\x7d"

/-- A graph with its lines put together. -/
def assemble (lines : List String) : String := "\n".intercalate lines

end Dot

namespace Graph

/-- The lines of a call graph in DOT. -/
def CallGraph.dotLines (style : GraphStyle) (g : CallGraph) : List String :=
  Dot.header style ++ g.nodes.toList.map Dot.nodeLine ++
    g.edges.toList.map (fun e => Dot.edgeLine e.source e.target) ++ [Dot.footer]

/-- A call graph in DOT. -/
def CallGraph.toDot (style : GraphStyle) (g : CallGraph) : String :=
  Dot.assemble (g.dotLines style)

/-- The line of a name in a dependency graph. Classes have a colour of their own. -/
def DependencyGraph.nodeLine (style : GraphStyle) (name : String) (kind : NameKind) : String :=
  match kind with
  | .classDefinition => Dot.colouredNodeLine name style.classFillColor
  | .function => Dot.nodeLine name
  | .referenced => Dot.nodeLine name

/-- The lines of a dependency graph in DOT. -/
def DependencyGraph.dotLines (style : GraphStyle) (g : DependencyGraph) : List String :=
  Dot.header style ++ g.nodes.toList.map (fun (name, kind) => nodeLine style name kind) ++
    g.edges.toList.map (fun e => Dot.edgeLine e.source e.target) ++ [Dot.footer]

/-- A dependency graph in DOT. -/
def DependencyGraph.toDot (style : GraphStyle) (g : DependencyGraph) : String :=
  Dot.assemble (g.dotLines style)

end Graph

end CallAtlas
