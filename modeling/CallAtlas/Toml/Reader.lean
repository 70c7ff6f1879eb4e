import CallAtlas.Toml.Number
import CallAtlas.Toml.Quoted
import CallAtlas.Toml.Value

/-!
# Reading TOML

A document is read line by line: a header opens a table, and the lines after it give the table its
members. Keys may have fewer than eighty parts, and values may be nested less than eighty levels deep.
-/

namespace CallAtlas.Toml

/-- The bound for the parts of a key and for the levels of a value. -/
def depthLimit : Nat := 80

/-- Passes a comment; what is left begins with the character after it. -/
def skipComment : List Char → List Char
  | '#' :: rest => rest.dropWhile fun c => !isControl c
  | cs => cs

/-- Passes blanks and a comment up to the end of the line. -/
def readLineEnd (cs : List Char) : Option (List Char) :=
  match skipComment (skipBlanks cs) with
  | [] => some []
  | cs => readBreak cs

/-- Passes blanks, line breaks and comments. -/
def skipFiller : Nat → List Char → Option (List Char)
  | 0, cs => some cs
  | fuel + 1, cs =>
    match skipBlanks cs with
    | '#' :: rest =>
      match readBreak (skipComment ('#' :: rest)) with
      | some rest => skipFiller fuel rest
      | none => none
    | '\n' :: rest => skipFiller fuel rest
    | '\r' :: rest =>
      match readBreak ('\r' :: rest) with
      | some rest => skipFiller fuel rest
      | none => none
    | cs => some cs

/-- Whether a character may stand in a key without quotation marks. -/
def isKeyChar (c : Char) : Bool := c.isAlphanum || c == '-' || c == '_'

/-- One part of a key. -/
def readKeyPart (cs : List Char) : Option (String × List Char) :=
  match cs with
  | '"' :: _ => readShort cs
  | '\'' :: _ => readShort cs
  | _ =>
    let part := cs.takeWhile isKeyChar
    if part.isEmpty then none else some (String.ofList part, cs.drop part.length)

/-- The parts of a key, with the blanks around them. -/
def readKeyParts : Nat → List Char → Option (List String × List Char)
  | 0, _ => none
  | fuel + 1, cs => do
    let (part, rest) ← readKeyPart (skipBlanks cs)
    match skipBlanks rest with
    | '.' :: rest =>
      let (parts, rest) ← readKeyParts fuel rest
      return (part :: parts, rest)
    | rest => return ([part], rest)

/-- A key: the path to a table, and the key in it. -/
def readKey (cs : List Char) : Option (List String × String × List Char) := do
  let (parts, rest) ← readKeyParts (cs.length + 1) cs
  if parts.length ≥ depthLimit then failure
  return (parts.dropLast, parts.getLastD "", rest)

mutual

/-- A value. `depth` is the number of arrays and tables around it; `fuel` bounds the number of
characters. -/
def readValue (depth : Nat) : Nat → List Char → Option (Toml × List Char)
  | 0, _ => none
  | fuel + 1, cs =>
    match cs with
    | '[' :: rest =>
      if depth + 1 ≥ depthLimit then none
      else
        match skipFiller rest.length rest with
        | some (']' :: rest) => some (.array [], rest)
        | some rest => readItems (depth + 1) fuel [] rest
        | none => none
    | '{' :: rest =>
      if depth + 1 ≥ depthLimit then none
      else
        match skipBlanks rest with
        | '}' :: rest => some (.table .inlined [], rest)
        | rest => readMembers (depth + 1) fuel [] rest
    | '"' :: _ => (readText cs).map fun (s, rest) => (.string s, rest)
    | '\'' :: _ => (readText cs).map fun (s, rest) => (.string s, rest)
    | 't' :: 'r' :: 'u' :: 'e' :: rest => some (.boolean true, rest)
    | 'f' :: 'a' :: 'l' :: 's' :: 'e' :: rest => some (.boolean false, rest)
    | _ =>
      match readDateTime cs with
      | some rest => some (.dateTime, rest)
      | none =>
        match readFloat cs with
        | some rest => some (.float, rest)
        | none => (readInteger cs).map fun (n, rest) => (.integer n, rest)

/-- The items of an array up to its end. -/
def readItems (depth : Nat) : Nat → List Toml → List Char → Option (Toml × List Char)
  | 0, _, _ => none
  | fuel + 1, done, cs =>
    match readValue depth fuel cs with
    | none => none
    | some (item, rest) =>
      match skipFiller rest.length rest with
      | some (',' :: rest) =>
        match skipFiller rest.length rest with
        | some (']' :: rest) => some (.array (item :: done).reverse, rest)
        | some rest => readItems depth fuel (item :: done) rest
        | none => none
      | some (']' :: rest) => some (.array (item :: done).reverse, rest)
      | _ => none

/-- The members of a table written as a value, up to its end. -/
def readMembers (depth : Nat) : Nat → Members → List Char → Option (Toml × List Char)
  | 0, _, _ => none
  | fuel + 1, done, cs =>
    match readKey cs with
    | some (path, key, '=' :: rest) =>
      match readValue depth fuel (skipBlanks rest) with
      | none => none
      | some (value, rest) =>
        match done.addDotted path key value with
        | none => none
        | some done =>
          match skipBlanks rest with
          | ',' :: rest => readMembers depth fuel done rest
          | '}' :: rest => some (.table .inlined done, rest)
          | _ => none
    | _ => none

end

/-- A document that is being read. -/
structure Draft where
  /-- The tables closed so far. -/
  root : Members := []
  /-- The path of the open table, with the key in it; none before the first header. -/
  header : Option (List String × String) := none
  /-- Whether the open table shares its header. -/
  shared : Bool := false
  /-- The members of the open table. -/
  members : Members := []

namespace Draft

/-- Closes the open table. -/
def close (d : Draft) : Option Members :=
  match d.header with
  | none => some d.members
  | some (path, key) =>
    d.root.alter false (fun _ inner =>
      if d.shared then
        match inner.get? key with
        | none => some (inner.set key (.tables [d.members]))
        | some (.tables items) => some (inner.set key (.tables (items ++ [d.members])))
        | some _ => none
      else some (inner.set key (.table .header d.members))) path .header

/-- What is at a key in the table at the end of a path. The outer `none` says that the path leads through
something that is no table. -/
def look (path : List String) (key : String) (root : Members) : Option (Option Toml) :=
  match path with
  | [] => some (root.get? key)
  | first :: rest =>
    match root.get? first with
    | none => some none
    | some (.table origin inner) => if origin == .inlined then none else look rest key inner
    | some (.tables items) => look rest key (items.getLastD [])
    | some _ => none

/-- Opens a table. One that exists must have been implied by the headers of tables below it, or share its
header. -/
def opened (d : Draft) (path : List String) (key : String) (shared : Bool) : Option Draft := do
  let root ← d.close
  let members ← match ← look path key root with
    | none => some []
    | some (.table .implied inner) => if shared then none else some inner
    | some (.tables _) => if shared then some [] else none
    | some _ => none
  return { root, header := some (path, key), shared, members }

end Draft

/-- Reads a header up to the end of its line. -/
def readHeader (d : Draft) (cs : List Char) : Option (Draft × List Char) := do
  let (shared, cs) := match cs with
    | '[' :: '[' :: rest => (true, rest)
    | _ => (false, cs.drop 1)
  let (path, key, rest) ← readKey cs
  let rest ← match shared, rest with
    | true, ']' :: ']' :: rest => some rest
    | false, ']' :: rest => some rest
    | _, _ => none
  return (← d.opened path key shared, ← readLineEnd rest)

/-- Reads a key and its value up to the end of the line. -/
def readMember (d : Draft) (cs : List Char) : Option (Draft × List Char) := do
  let (path, key, rest) ← readKey cs
  match rest with
  | '=' :: rest =>
    let (value, rest) ← readValue 0 (2 * rest.length + 2) (skipBlanks rest)
    let members ← d.members.addDotted path key value
    return ({ d with members }, ← readLineEnd rest)
  | _ => failure

/-- Reads the lines of a document. `fuel` bounds their number. -/
def readDocument : Nat → Draft → List Char → Option Draft
  | 0, _, _ => none
  | fuel + 1, d, cs =>
    match skipBlanks cs with
    | [] => some d
    | '#' :: rest => (readLineEnd ('#' :: rest)).bind (readDocument fuel d)
    | '\n' :: rest => readDocument fuel d rest
    | '\r' :: rest => (readBreak ('\r' :: rest)).bind (readDocument fuel d)
    | '[' :: rest => (readHeader d ('[' :: rest)).bind fun (d, rest) => readDocument fuel d rest
    | rest => (readMember d rest).bind fun (d, rest) => readDocument fuel d rest

/-- The members of the table that a text describes. A byte order mark at the beginning is passed. -/
def parse (s : String) : Option Members :=
  let cs := match s.toList with
    | '\uFEFF' :: rest => rest
    | cs => cs
  (readDocument (cs.length + 1) {} cs).bind Draft.close

end CallAtlas.Toml
