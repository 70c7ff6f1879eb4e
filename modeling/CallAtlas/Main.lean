import CallAtlas.CommandLine.Program
import CallAtlas.Python

/-!
# The program in the system

The host of the real program: its files, its input, and its outputs are those of the system.
-/

namespace CallAtlas

/-- The error behind an error of the system. -/
def FileError.ofSystem : IO.Error → FileError
  | .noFileOrDirectory .. => .notFound
  | .alreadyExists .. => .alreadyExists
  | e => .other (toString e)

/-- Carries out an action and returns its error, if there is one. -/
def attempt {α : Type} (action : IO α) : IO (Except FileError α) := do
  try
    return .ok (← action)
  catch e => return .error (.ofSystem e)

/-- Reads a stream to its end. -/
partial def readAll (stream : IO.FS.Stream) (done : ByteArray) : IO ByteArray := do
  let piece ← stream.read 65536
  if piece.isEmpty then return done else readAll stream (done ++ piece)

/-- Whether a directory is at a path. -/
def isSystemDirectory (path : String) : IO Bool := do
  try (← IO.FS.realPath path).isDir catch _ => return false

/-- Makes the directory at a path, after the one above it where something on the way is missing. The names
that lead there are given too, the last one first, with what comes before all of them. -/
def makeSystemDirectories (before path : String) : List String → IO Unit
  | [] => return ()
  | _ :: above => do
    let make : IO Unit := do
      try IO.FS.createDir path
      catch e => unless ← isSystemDirectory path do throw e
    try make
    catch
      | .noFileOrDirectory .. => do
        makeSystemDirectories before (before ++ "/".intercalate above.reverse) above
        make
      | e => throw e

instance : Host IO where
  read path := attempt (IO.FS.readBinFile path)
  write path content := attempt (IO.FS.writeBinFile path content)
  present path := do
    match ← attempt (IO.FS.realPath path) with
    | .ok _ => return true
    | .error _ => return false
  createDirectory path :=
    attempt (makeSystemDirectories (if path.startsWith "/" then "/" else "") path
      (Files.namesOf path).reverse)
  readInput := do attempt (readAll (← IO.getStdin) .empty)
  print text := IO.print text
  complain text := IO.eprint text

end CallAtlas

/-- Runs the program with the words of its command line. -/
def main (words : List String) : IO UInt32 := do
  return (← CallAtlas.CommandLine.runProgram CallAtlas.Python.grammar words).toUInt32
