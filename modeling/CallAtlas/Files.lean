import Std.Data.ExtTreeMap

/-!
# Files

A small world of files and directories below a working directory, with the errors that reading and
writing in it can end in. A path is a text of names with slashes between; `.` stands for the directory
itself and `..` for the one above. Nothing is above the working directory: a path that begins with a
slash, and one that leads above the working directory, finds nothing, and nothing can be made there.
-/

namespace CallAtlas

/-- Why a file cannot be read or written. -/
inductive FileError where
  | notFound
  | isDirectory
  | notDirectory
  | alreadyExists
  | nameTooLong
  /-- The path contains a NUL character. -/
  | invalidName
  /-- The content is not a text in UTF-8. -/
  | notText
  /-- Any other reason, in the words of the system. -/
  | other (message : String)
deriving DecidableEq, Inhabited, Repr

namespace FileError

/-- The error in words. -/
def message : FileError → String
  | notFound => "No such file or directory (os error 2)"
  | isDirectory => "Is a directory (os error 21)"
  | notDirectory => "Not a directory (os error 20)"
  | alreadyExists => "File exists (os error 17)"
  | nameTooLong => "File name too long (os error 36)"
  | invalidName => "file name contained an unexpected NUL byte"
  | notText => "stream did not contain valid UTF-8"
  | other message => message

end FileError

/-- What is at a path. -/
inductive Entry where
  | file (content : ByteArray)
  | directory
deriving BEq, Inhabited

/-- Files and directories by their paths, names joined by slashes. The working directory itself has no
entry. -/
structure Files where
  entries : Std.ExtTreeMap String Entry
deriving BEq

namespace Files

/-- No files. -/
def empty : Files := ⟨∅⟩

instance : Inhabited Files := ⟨empty⟩

/-- A place among the files: the names that lead to it, the last one first. -/
abbrev Place := List String

/-- The path of a place. -/
def Place.path (p : Place) : String := "/".intercalate p.reverse

/-- What is at a place. -/
def at? (files : Files) : Place → Option Entry
  | [] => some .directory
  | p => files.entries[Place.path p]?

/-- The names in a path. Names that change nothing are left out. -/
def namesOf (path : String) : List String :=
  ((path.splitOn "/").filter (· ≠ "")).filter (· ≠ ".")

/-- Whether a path says that it leads to a directory. -/
def namesDirectory (path : String) : Bool := path.endsWith "/" || path.endsWith "/." || path == "."

/-- Whether the last name in a path is the dot of a directory. What is before the dot must exist. -/
def endsInDot (path : String) : Bool := ((path.splitOn "/").filter (· ≠ "")).getLast? == some "."

/-- Goes down a path from a directory. All names but the last must lead to directories. -/
def walk (files : Files) : Place → List String → Except FileError (Place × Option Entry)
  | place, [] => .ok (place, files.at? place)
  | place, name :: rest =>
    if name.utf8ByteSize > 255 then .error .nameTooLong
    else if name = ".." then
      match place with
      | [] => .error .notFound
      | _ :: above => walk files above rest
    else
      let next := name :: place
      match rest, files.at? next with
      | [], found => .ok (next, found)
      | _, none => .error .notFound
      | _, some (.file _) => .error .notDirectory
      | _, some .directory => walk files next rest

/-- The place to which the names in a path lead, with what is there. -/
def locate (files : Files) (path : String) : Except FileError (Place × Option Entry) :=
  if path.contains '\x00' then .error .invalidName
  else if path.isEmpty || path.startsWith "/" then .error .notFound
  else if path.utf8ByteSize > 4095 then .error .nameTooLong
  else files.walk [] (namesOf path)

/-- The place to which a path leads, with what is there. A file cannot be where a directory must be. -/
def find (files : Files) (path : String) : Except FileError (Place × Option Entry) :=
  match files.locate path with
  | .ok (_, some (.file _)) =>
    if namesDirectory path then .error .notDirectory else files.locate path
  | result => result

/-- Whether something is at a path. -/
def contains (files : Files) (path : String) : Bool :=
  match files.find path with
  | .ok (_, some _) => true
  | _ => false

/-- The content of the file at a path. -/
def read (files : Files) (path : String) : Except FileError ByteArray :=
  match files.find path with
  | .ok (_, some (.file content)) => .ok content
  | .ok (_, some .directory) => .error .isDirectory
  | .ok (_, none) => .error .notFound
  | .error e => .error e

/-- The files with a file at a path whose directory exists. -/
def write (files : Files) (path : String) (content : ByteArray) : Except FileError Files :=
  match files.locate path with
  | .ok (_, some .directory) => .error .isDirectory
  | .ok (place, found) =>
    if namesDirectory path then
      .error (if !endsInDot path then .isDirectory
        else if found.isSome then .notDirectory else .notFound)
    else .ok ⟨files.entries.insert (Place.path place) (.file content)⟩
  | .error e => .error e

/-- Makes the directory to which names lead, unless there is one, in the directory above it. With a dot
behind the names it must be there already. -/
def makeDirectory (files : Files) (names : List String) (dot : Bool) :
    Except FileError Unit × Files :=
  match files.walk [] names with
  | .ok (_, some .directory) => (.ok (), files)
  | .ok (_, some (.file _)) => (.error (if dot then .notDirectory else .alreadyExists), files)
  | .ok (place, none) =>
    if dot then (.error .notFound, files)
    else (.ok (), ⟨files.entries.insert (Place.path place) .directory⟩)
  | .error e => (.error e, files)

/-- Makes the directory to which names lead, the last one first. Where something on the way is missing, the
directory above is made before, and it stays even if the directory itself cannot be made then. -/
def makeDirectories (files : Files) (dot : Bool) : List String → Except FileError Unit × Files
  | [] => (.ok (), files)
  | name :: above =>
    match files.makeDirectory (name :: above).reverse dot with
    | (.error .notFound, _) =>
      -- the dot is not part of the path above
      match files.makeDirectories false above with
      | (.ok (), made) => made.makeDirectory (name :: above).reverse dot
      | (.error e, made) => (.error e, made)
    | result => result

/-- Makes the directory at a path and those above it, as far as that is possible. -/
def ensureDirectory (files : Files) (path : String) : Except FileError Unit × Files :=
  if path.contains '\x00' then (.error .invalidName, files)
  else if path.startsWith "/" then (.error .notFound, files)
  else if path.utf8ByteSize > 4095 then (.error .nameTooLong, files)
  else files.makeDirectories (endsInDot path) (namesOf path).reverse

/-- The files with the directory at a path and those above it, if all of them can be made. -/
def createDirectory (files : Files) (path : String) : Except FileError Files :=
  match files.ensureDirectory path with
  | (.ok (), made) => .ok made
  | (.error e, _) => .error e

/-- All files with their paths, in ascending order of paths. -/
def toList (files : Files) : List (String × ByteArray) :=
  files.entries.toList.filterMap fun (path, entry) =>
    match entry with
    | .file content => some (path, content)
    | .directory => none

end Files

end CallAtlas
