import CallAtlas.Json.Printer
import CallAtlas.Listing.Data
import CallAtlas.Listing.Format
import CallAtlas.Text.Blank
import CallAtlas.Text.Lines

/-!
# Listings

The functions of a program, their calls, and the statistics of their call graph, as text or as JSON.
-/

namespace CallAtlas

open CallAtlas.Graph

namespace Listing

/-- The heading of a function. -/
def heading (r : FunctionRecord) : String :=
  (if r.isAsync then "async " else "") ++ r.name ++ " (lines " ++ toString r.startLine ++ "-" ++
    toString r.endLine ++ ")\n"

/-- The lines of a function's source, each behind a bar, and an empty line. -/
def sourceLines (r : FunctionRecord) : String :=
  String.join ((Text.lines r.sourceText).map fun line => "    | " ++ line ++ "\n") ++ "\n"

/-- A function as data, with or without its source. -/
def functionJson (includeSource : Bool) (r : FunctionRecord) : Json :=
  .object
    ([("name", .string r.name),
      ("start_line", .natural r.startLine),
      ("end_line", .natural r.endLine),
      ("is_async", .bool r.isAsync),
      ("depth", .natural r.depth)] ++
    if includeSource then [("source_text", .string r.sourceText)] else [])

/-- The functions in the order of their definitions. -/
def functions (includeSource : Bool) (format : Format) (e : Extraction) : String :=
  match format with
  | .json => (Json.array (e.functions.map (functionJson includeSource))).pretty
  | .text | .dot =>
    Text.trimEnd (String.join (e.functions.map fun r =>
      heading r ++ if includeSource then sourceLines r else ""))

/-- What stands for no names at all. -/
def nothing : String := "(none)"

/-- Names with commas between them. -/
def enumeration (names : List String) : String :=
  if names.isEmpty then nothing else ", ".intercalate names

/-- The line of a function with its callees. -/
def callLine (name : String) (callees : List String) : String :=
  name ++ " -> " ++ enumeration callees ++ "\n"

/-- The functions in ascending order with what they call. -/
def calls (format : Format) (e : Extraction) : String :=
  match format with
  | .json => e.calls.toJson.pretty
  | .text | .dot =>
    Text.trimEnd (String.join (e.calls.toList.map fun (name, callees) =>
      callLine name callees.toList))

/-- The line of a cycle. Its first function is named again at the end. -/
def cycleLine (cycle : List String) : String :=
  "cycle:          " ++ " -> ".intercalate (cycle ++ cycle.take 1) ++ "\n"

/-- The statistics of a call graph with the names behind them, as text. -/
def statisticsText (g : CallGraph) : String :=
  let s := g.statistics
  let cycles := g.cycles
  Text.trimEnd
    ("functions:      " ++ toString s.totalFunctions ++ "\n" ++
      "calls:          " ++ toString s.totalCalls ++ "\n" ++
      "self calls:     " ++ toString s.selfCalls ++ "\n" ++
      "max in-degree:  " ++ toString s.maxInDegree ++ "\n" ++
      "max out-degree: " ++ toString s.maxOutDegree ++ "\n" ++
      "entry points:   " ++ enumeration g.entryPoints ++ "\n" ++
      "isolated:       " ++ enumeration g.isolated ++ "\n" ++
      if cycles.isEmpty then "cycles:         " ++ nothing ++ "\n"
      else String.join (cycles.map cycleLine))

/-- The statistics of a call graph with the names behind them, as data. -/
def statisticsJson (g : CallGraph) : Json :=
  .object
    [("statistics", g.statistics.toJson),
      ("entry_points", .strings g.entryPoints),
      ("isolated", .strings g.isolated),
      ("cycles", .array (g.cycles.map .strings))]

/-- The statistics of a call graph. -/
def statistics (format : Format) (g : CallGraph) : String :=
  match format with
  | .json => (statisticsJson g).pretty
  | .text | .dot => statisticsText g

end Listing

end CallAtlas
