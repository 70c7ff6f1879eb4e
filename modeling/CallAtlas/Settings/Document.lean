import CallAtlas.Failure
import CallAtlas.Settings.Basic
import CallAtlas.Toml.Reader

/-!
# Settings as a document

Settings are kept as a TOML document with a table for each of their groups. Reading leaves every field
that the document does not name as it is by default, and passes whatever it does not know. Writing names
every field.
-/

namespace CallAtlas

namespace Toml

/-- Whether the value can hold a group of settings: a table, or the group's fields in their order. A date
or time is read like a table in which nothing is known. -/
def isGroup : Toml → Bool
  | table _ _ => true
  | array _ => true
  | tables _ => true
  | dateTime => true
  | _ => false

/-- A field of a group, by its key or by its place. -/
def field? (place : Nat) (key : String) : Toml → Option Toml
  | table _ members => Members.get? members key
  | array items => items[place]?
  | tables items => (items[place]?).map (.table .header ·)
  | _ => none

/-- Whether the value holds nothing. -/
def isEmptyGroup : Toml → Bool
  | table _ members => members.isEmpty
  | array items => items.isEmpty
  | tables items => items.isEmpty
  | _ => false

/-- The text that the value is. -/
def string? : Toml → Option String
  | string s => some s
  | _ => none

/-- The truth value that the value is. -/
def boolean? : Toml → Option Bool
  | boolean b => some b
  | _ => none

/-- The natural number that the value is. -/
def natural? : Toml → Option Nat
  | integer n => if 0 ≤ n then some n.toNat else none
  | _ => none

/-- The policy that the value names, as a text or as the key of an empty table. -/
def policy? : Toml → Option DuplicatePolicy
  | string s => DuplicatePolicy.ofName? s
  | table _ [(key, value)] => if value.isEmptyGroup then DuplicatePolicy.ofName? key else none
  | _ => none

/-- Reads a value if there is one; `fallback` if there is none. -/
def readOr {α : Type} (read : Toml → Option α) (fallback : α) (key : String)
    (value : Option Toml) : Except Failure α :=
  match value with
  | none => .ok fallback
  | some v =>
    match read v with
    | some a => .ok a
    | none => .error (.settings (.wrongValue key))

/-- Reads a group of settings if there is one; `fallback` if there is none. -/
def readGroupOr {α : Type} (read : Toml → Except Failure α) (fallback : α) (key : String)
    (value : Option Toml) : Except Failure α :=
  match value with
  | none => .ok fallback
  | some v => if v.isGroup then read v else .error (.settings (.wrongValue key))

end Toml

/-- The settings for reading programs that a group holds. -/
def ParsingSettings.ofGroup (group : Toml) : Except Failure ParsingSettings := do
  let plain : ParsingSettings := {}
  let maxFileSize ← Toml.readOr Toml.natural? plain.maxFileSize "max_file_size"
    (group.field? 0 "max_file_size")
  let maxDepth ← Toml.readOr Toml.natural? plain.maxDepth "max_depth" (group.field? 1 "max_depth")
  let duplicatePolicy ← Toml.readOr Toml.policy? plain.duplicatePolicy "duplicate_policy"
    (group.field? 2 "duplicate_policy")
  return { maxFileSize, maxDepth, duplicatePolicy }

/-- The style of graphs that a group holds. -/
def GraphStyle.ofGroup (group : Toml) : Except Failure GraphStyle := do
  let plain : GraphStyle := {}
  let name ← Toml.readOr Toml.string? plain.name "name" (group.field? 0 "name")
  let rankdir ← Toml.readOr Toml.string? plain.rankdir "rankdir" (group.field? 1 "rankdir")
  let nodeShape ← Toml.readOr Toml.string? plain.nodeShape "node_shape"
    (group.field? 2 "node_shape")
  let nodeStyle ← Toml.readOr Toml.string? plain.nodeStyle "node_style"
    (group.field? 3 "node_style")
  let fillColor ← Toml.readOr Toml.string? plain.fillColor "fill_color"
    (group.field? 4 "fill_color")
  let classFillColor ← Toml.readOr Toml.string? plain.classFillColor "class_fill_color"
    (group.field? 5 "class_fill_color")
  return { name, rankdir, nodeShape, nodeStyle, fillColor, classFillColor }

/-- The settings for writing listings that a group holds. -/
def OutputSettings.ofGroup (group : Toml) : Except Failure OutputSettings := do
  let plain : OutputSettings := {}
  let format ← Toml.readOr Toml.string? plain.format "format" (group.field? 0 "format")
  let includeSource ← Toml.readOr Toml.boolean? plain.includeSource "include_source"
    (group.field? 1 "include_source")
  return { format, includeSource }

namespace Settings

/-- The settings that a document holds. -/
def ofMembers (members : Toml.Members) : Except Failure Settings := do
  let parsing ← Toml.readGroupOr ParsingSettings.ofGroup {} "parsing" (members.get? "parsing")
  let graph ← Toml.readGroupOr GraphStyle.ofGroup {} "graph" (members.get? "graph")
  let output ← Toml.readGroupOr OutputSettings.ofGroup {} "output" (members.get? "output")
  return { parsing, graph, output }

/-- The settings that a text holds. -/
def ofDocument (text : String) : Except Failure Settings :=
  match Toml.parse text with
  | some members => ofMembers members
  | none => .error (.settings .notToml)

/-- A group of a document: its header and a line for each of its fields. -/
def writeGroup (name : String) (fields : List (String × String)) : String :=
  "[" ++ name ++ "]\n" ++ String.join (fields.map fun (key, value) => key ++ " = " ++ value ++ "\n")

/-- The settings as a document. -/
def document (s : Settings) : String :=
  writeGroup "parsing"
      [("max_file_size", toString s.parsing.maxFileSize),
        ("max_depth", toString s.parsing.maxDepth),
        ("duplicate_policy", Toml.quote s.parsing.duplicatePolicy.name)] ++ "\n" ++
    writeGroup "graph"
      [("name", Toml.quote s.graph.name),
        ("rankdir", Toml.quote s.graph.rankdir),
        ("node_shape", Toml.quote s.graph.nodeShape),
        ("node_style", Toml.quote s.graph.nodeStyle),
        ("fill_color", Toml.quote s.graph.fillColor),
        ("class_fill_color", Toml.quote s.graph.classFillColor)] ++ "\n" ++
    writeGroup "output"
      [("format", Toml.quote s.output.format),
        ("include_source", if s.output.includeSource then "true" else "false")]

/-- The settings as a document, if every number fits into one. -/
def toDocument (s : Settings) : Except Failure String :=
  if s.parsing.maxFileSize ≥ Nat.pow 2 63 then .error (.settings (.tooLarge "max_file_size"))
  else if s.parsing.maxDepth ≥ Nat.pow 2 63 then .error (.settings (.tooLarge "max_depth"))
  else .ok s.document

end Settings

end CallAtlas
