import CallAtlas.Files

/-!
# Hosts

What commands need from their surroundings: files, an input, and two outputs. A `Desk` is the simplest
host, with all of these as plain values.
-/

namespace CallAtlas

/-- Surroundings in which commands can be run. -/
class Host (m : Type → Type) where
  /-- The content of a file. -/
  read : String → m (Except FileError ByteArray)
  /-- Gives a file a content. -/
  write : String → ByteArray → m (Except FileError Unit)
  /-- Whether something is at a path. -/
  present : String → m Bool
  /-- Makes a directory and those above it, as far as that is possible. -/
  createDirectory : String → m (Except FileError Unit)
  /-- All of the input. -/
  readInput : m (Except FileError ByteArray)
  /-- Writes to the output. -/
  print : String → m Unit
  /-- Writes to the output for errors. -/
  complain : String → m Unit

/-- Files, an input, and what has been written so far. -/
structure Desk where
  files : Files := .empty
  input : ByteArray := .empty
  output : String := ""
  errors : String := ""
deriving Inhabited

namespace Desk

/-- Changes the files unless that fails. -/
def changeFiles (change : Files → Except FileError Files) : StateM Desk (Except FileError Unit) :=
  fun desk =>
    match change desk.files with
    | .ok files => (.ok (), { desk with files })
    | .error e => (.error e, desk)

instance : Host (StateM Desk) where
  read path := fun desk => (desk.files.read path, desk)
  write path content := changeFiles fun files => files.write path content
  present path := fun desk => (desk.files.contains path, desk)
  createDirectory path := fun desk =>
    let (result, files) := desk.files.ensureDirectory path
    (result, { desk with files })
  readInput := fun desk => (.ok desk.input, { desk with input := .empty })
  print text := fun desk => ((), { desk with output := desk.output ++ text })
  complain text := fun desk => ((), { desk with errors := desk.errors ++ text })

end Desk

namespace Host

variable {m : Type → Type} [Monad m] [Host m]

/-- The text in some bytes. -/
def decode (bytes : ByteArray) : Except FileError String :=
  match String.fromUTF8? bytes with
  | some text => .ok text
  | none => .error .notText

/-- The content of a file as text. -/
def readText (path : String) : m (Except FileError String) :=
  (fun content => content.bind decode) <$> read path

/-- All of the input as text. -/
def readInputText : m (Except FileError String) :=
  (fun content => content.bind decode) <$> readInput

/-- Gives a file a text for its content. -/
def writeText (path text : String) : m (Except FileError Unit) := write path text.toUTF8

end Host

end CallAtlas
