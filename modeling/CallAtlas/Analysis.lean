import CallAtlas.Dependencies
import CallAtlas.Extraction
import CallAtlas.Graph.Dot

/-!
# Analyses of a program

An analyzer answers what is asked about a program, by its grammar and its settings.
-/

namespace CallAtlas

open CallAtlas.Graph Syntax Text

/-- The functions of a program with their call graph. -/
structure Analysis where
  extraction : Extraction
  graph : CallGraph
deriving BEq, Inhabited

/-- What the analysis of a program ends in. -/
inductive Outcome where
  /-- The program defines functions. -/
  | found (analysis : Analysis)
  /-- The program is valid but defines no function. -/
  | nothingFound
  /-- The program is not valid. -/
  | parseFailed (diagnostic : Diagnostic)
  /-- The analysis is not possible for another reason. -/
  | failed (reason : Failure)
deriving Inhabited

/-- A grammar with settings. -/
structure Analyzer where
  grammar : Grammar
  settings : Settings

namespace Analyzer

/-- The functions of a program and the calls between them. -/
def extract (a : Analyzer) (source : Source) : Except Failure Extraction :=
  Extraction.ofSource a.grammar a.settings.parsing source

/-- The dependencies in a program. -/
def dependencies (a : Analyzer) (source : Source) : Except Failure DependencyGraph :=
  Dependencies.ofSource a.grammar a.settings.parsing source

/-- The analysis of a program. -/
def analyze (a : Analyzer) (source : Source) : Outcome :=
  match a.extract source with
  | .ok extraction =>
    if extraction.isEmpty then .nothingFound
    else .found { extraction, graph := .ofCallSet extraction.calls }
  | .error (.syntaxError diagnostic) => .parseFailed diagnostic
  | .error reason => .failed reason

/-- The call graph of an analysis in DOT. -/
def dot (a : Analyzer) (analysis : Analysis) : String := analysis.graph.toDot a.settings.graph

end Analyzer

end CallAtlas
