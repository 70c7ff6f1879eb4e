import CallAtlas.Extraction
import CallAtlas.Graph.DependencyGraph
import CallAtlas.Graph.Statistics
import CallAtlas.Json.Basic

/-!
# Results as data

Extractions and graphs as JSON values, and back where they can be given from outside. A record is an
object with a member for each field; reading takes an array of the fields as well.
-/

namespace CallAtlas

open CallAtlas.Graph

namespace Json

/-- The field of a record, by its name or by its place; an array must hold exactly `count` fields. -/
def field? (count place : Nat) (name : String) (j : Json) : Option Json :=
  match j with
  | object _ => j.member? name
  | array items => if items.length = count then items[place]? else none
  | _ => none

end Json

namespace Graph

/-- What each function calls: a member for each function, with the names of its callees. -/
def CallSet.toJson (c : CallSet) : Json :=
  .object (c.toList.map fun (name, callees) => (name, .strings callees.toList))

/-- The call set that a value describes. Callees need not be in the set. -/
def CallSet.ofJson? (j : Json) : Option CallSet := do
  let members ← j.object?
  let calls ← members.mapM fun (name, value) => value.strings?.map fun callees => (name, callees)
  return ⟨calls.foldl (fun m (name, callees) => m.insert name (.ofList callees)) ∅⟩

/-- The functions and the calls of a graph. -/
def CallGraph.toJson (g : CallGraph) : Json :=
  .object
    [("nodes", .strings g.nodes.toList),
      ("edges", .array (g.edges.toList.map fun e =>
        .object [("caller", .string e.source), ("callee", .string e.target)]))]

/-- What a name stands for, in a word. -/
def NameKind.word : NameKind → String
  | .function => "function"
  | .classDefinition => "class"
  | .referenced => "referenced"

/-- The names and the dependencies of a graph. -/
def DependencyGraph.toJson (g : DependencyGraph) : Json :=
  .object
    [("nodes", .object (g.nodes.toList.map fun (name, kind) => (name, .string kind.word))),
      ("edges", .array (g.edges.toList.map fun e => .strings [e.source, e.target]))]

/-- The numbers that sum up a call graph. -/
def Statistics.toJson (s : Statistics) : Json :=
  .object
    [("total_functions", .natural s.totalFunctions),
      ("total_calls", .natural s.totalCalls),
      ("entry_points", .natural s.entryPoints),
      ("isolated", .natural s.isolated),
      ("self_calls", .natural s.selfCalls),
      ("cycles", .natural s.cycles),
      ("max_in_degree", .natural s.maxInDegree),
      ("max_out_degree", .natural s.maxOutDegree)]

end Graph

/-- The record of a function. -/
def FunctionRecord.toJson (r : FunctionRecord) : Json :=
  .object
    [("name", .string r.name),
      ("start_line", .natural r.startLine),
      ("end_line", .natural r.endLine),
      ("source_text", .string r.sourceText),
      ("is_async", .bool r.isAsync),
      ("depth", .natural r.depth)]

/-- The record of a function that a value describes. -/
def FunctionRecord.ofJson? (j : Json) : Option FunctionRecord := do
  let name ← (← j.field? 6 0 "name").string?
  let startLine ← (← j.field? 6 1 "start_line").natural?
  let endLine ← (← j.field? 6 2 "end_line").natural?
  let sourceText ← (← j.field? 6 3 "source_text").string?
  let isAsync ← (← j.field? 6 4 "is_async").bool?
  let depth ← (← j.field? 6 5 "depth").natural?
  return { name, startLine, endLine, sourceText, isAsync, depth }

/-- An extraction. -/
def Extraction.toJson (e : Extraction) : Json :=
  .object
    [("functions", .array (e.functions.map FunctionRecord.toJson)),
      ("calls", e.calls.toJson),
      ("content_hash", .string e.contentHash)]

/-- The extraction that a value describes. -/
def Extraction.ofJson? (j : Json) : Option Extraction := do
  let functions ← (← (← j.field? 3 0 "functions").array?).mapM FunctionRecord.ofJson?
  let calls ← CallSet.ofJson? (← j.field? 3 1 "calls")
  let contentHash ← (← j.field? 3 2 "content_hash").string?
  return { functions, calls, contentHash }

end CallAtlas
