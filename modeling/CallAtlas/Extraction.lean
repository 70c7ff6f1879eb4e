import CallAtlas.Digest
import CallAtlas.Graph.CallSet
import CallAtlas.Syntax.Construct
import CallAtlas.Syntax.Tree
import CallAtlas.Text.Lines

/-!
# Extraction

The functions that a program defines and the calls between them. A first walk through the tree records
the definitions; a second one through each definition, and through its decorators, gathers the calls
to functions of the program.
-/

namespace CallAtlas

open CallAtlas.Graph Syntax Text

/-- A function as it is defined in a program. -/
structure FunctionRecord where
  name : String
  /-- The first line of the definition, counted from one. -/
  startLine : Nat
  /-- The last line of the definition. -/
  endLine : Nat
  /-- The lines of the definition. -/
  sourceText : String
  isAsync : Bool
  /-- How many definitions of functions enclose it. -/
  depth : Nat
deriving DecidableEq, Inhabited, Repr

/-- The functions of a program and the calls between them. -/
structure Extraction where
  /-- The functions in the order of their definitions. -/
  functions : List FunctionRecord
  calls : CallSet
  /-- The digest of the program. -/
  contentHash : String
deriving BEq

namespace Extraction

instance : Inhabited Extraction := ⟨⟨[], .empty, ""⟩⟩

/-- Whether the program defines no function. -/
def isEmpty (e : Extraction) : Bool := e.functions.isEmpty

/-- The last row of a definition whose last token is given. A token that ends at the beginning of a line
belongs to the line before. -/
def lastRow (definition last : Node) : Nat :=
  if last.stop.column = 0 && last.stop.row > definition.start.row then last.stop.row - 1
  else last.stop.row

/-- The lines of a definition whose last token is given, without the end of the last line. -/
def linesOf (source : Source) (definition last : Node) : String :=
  let start := definition.start.byte - definition.start.column
  let stop :=
    if last.stop.column = 0 && last.stop.byte > definition.start.byte then last.stop.byte - 1
    else last.stop.byte
  String.ofList (dropReturn (source.slice start (source.lineEnd stop)).toList)

/-- The record of a definition. -/
def recordOf (source : Source) (definition name : Node) (isAsync : Bool) (depth : Nat) :
    FunctionRecord :=
  let last := definition.lastCodeToken
  { name := name.text source
    startLine := definition.start.line
    endLine := lastRow definition last + 1
    sourceText := linesOf source definition last
    isAsync
    depth }

/-- A definition found in a tree. -/
structure Definition where
  node : Node
  decorators : List Node
  record : FunctionRecord
deriving Inhabited

mutual

/-- Adds the definitions in a tree to those found so far. `depth` is the number of definitions around
the tree, `parent` the node that holds it. -/
def collect (source : Source) (depth : Nat) (parent : Option Node) :
    Node → Array Definition → Array Definition
  | .node shape children, found =>
    let here := Node.node shape children
    match here.construct with
    | .function name isAsync =>
      collectAll source (depth + 1) here children
        (found.push
          { node := here, decorators := Node.decorators parent,
            record := recordOf source here name isAsync depth })
    | _ => collectAll source depth here children found

/-- Adds the definitions in some trees to those found so far. -/
def collectAll (source : Source) (depth : Nat) (parent : Node) :
    List Node → Array Definition → Array Definition
  | [], found => found
  | n :: rest, found =>
    collectAll source depth parent rest (collect source depth (some parent) n found)

end

/-- The definitions of functions in a tree, each before those inside it. -/
def definitions (t : Tree) : List Definition := (collect t.source 0 none t.root #[]).toList

/-- The function of the program that a node surely calls. -/
def calledBy (source : Source) (known : CallSet) (n : Node) : Option String :=
  match n.construct with
  | .call function => (function.callee source).directName.filter known.contains
  | _ => none

mutual

/-- Adds the functions of the program that a tree calls to those found so far. -/
def addCalls (source : Source) (known : CallSet) : Node → NameSet → NameSet
  | .node shape children, found =>
    addCallsOfAll source known children
      (match calledBy source known (.node shape children) with
      | some name => found.insert name
      | none => found)

/-- Adds the functions of the program that some trees call to those found so far. -/
def addCallsOfAll (source : Source) (known : CallSet) : List Node → NameSet → NameSet
  | [], found => found
  | n :: rest, found => addCallsOfAll source known rest (addCalls source known n found)

end

/-- The functions of the program that a definition and its decorators call. -/
def calleesOf (source : Source) (known : CallSet) (d : Definition) : NameSet :=
  addCalls source known d.node (addCallsOfAll source known d.decorators ∅)

/-- Gives each name the calls of one of its definitions, as the policy says. `seen` holds the names met
so far with the lines of their first definitions. -/
def assignCalls (policy : DuplicatePolicy) (seen : Std.ExtTreeMap String Nat) :
    List (FunctionRecord × NameSet) → CallSet → Except Failure CallSet
  | [], calls => .ok calls
  | (record, callees) :: rest, calls =>
    match seen[record.name]? with
    | none =>
      assignCalls policy (seen.insert record.name record.startLine) rest
        (calls.setCallees record.name callees)
    | some firstLine =>
      match policy with
      | .lastWins => assignCalls policy seen rest (calls.setCallees record.name callees)
      | .firstWins => assignCalls policy seen rest calls
      | .reject => .error (.duplicateFunction record.name firstLine record.startLine)

/-- The functions of an accepted program and the calls between them. -/
def ofTree (policy : DuplicatePolicy) (t : Tree) : Except Failure Extraction :=
  let found := definitions t
  let known := found.foldl (fun c d => c.insertFunction d.record.name) CallSet.empty
  let resolved := found.map fun d => (d.record, calleesOf t.source known d)
  match assignCalls policy ∅ resolved known with
  | .error failure => .error failure
  | .ok calls =>
    .ok { functions := found.map (·.record), calls, contentHash := Digest.hex t.source.bytes }

/-- The functions of a program and the calls between them. -/
def ofSource (grammar : Grammar) (settings : ParsingSettings) (source : Source) :
    Except Failure Extraction :=
  match Tree.parse grammar settings source with
  | .error failure => .error failure
  | .ok tree => ofTree settings.duplicatePolicy tree

end Extraction

end CallAtlas
