import CallAtlas.Failure

/-!
# Commands

What can be asked for, how it can end, and what keeps it from being done.
-/

namespace CallAtlas

/-- Whether a path stands for the standard input. It is `-`; names that change nothing may come behind
it. -/
def isStandardInput (path : String) : Bool :=
  path.toList.head? == some '-' && Files.namesOf path == ["-"]

/-- A command with its arguments. A format is given by its name, and the input by a path, which may stand
for the standard input. -/
inductive Command where
  /-- Lists the functions of a program. -/
  | functions (input : String) (format : Option String) (withoutSource : Bool)
  /-- Lists what each function calls. -/
  | calls (input : String) (format : Option String)
  /-- Writes the call graph. -/
  | graph (input : String) (format output : Option String)
  /-- Sums up the call graph. -/
  | stats (input : String) (format : Option String)
  /-- Writes the dependency graph. -/
  | deps (input : String) (output : Option String)
  /-- Makes a settings file in a directory, in place of another one only by force. -/
  | init (directory : Option String) (force : Bool)
deriving DecidableEq, Inhabited, Repr

/-- How a command ends. -/
inductive Status where
  | success
  /-- There is nothing to report on. -/
  | nothingFound
  /-- The program is not valid. -/
  | parseFailed
  | failed
deriving DecidableEq, Inhabited, Repr

namespace Status

/-- The number by which the status is told to whoever has given the command. -/
def exitCode : Status → Nat
  | success | nothingFound => 0
  | parseFailed => 2
  | failed => 1

/-- Whether all went well. -/
def isSuccess (s : Status) : Bool := s.exitCode == 0

end Status

/-- What keeps a command from being done. -/
inductive Obstacle where
  | cannotLoadSettings
  | cannotRead (path : String)
  | cannotReadInput
  | cannotWrite (path : String)
  | cannotCreate (path : String)
  | other (reason : Failure)
deriving DecidableEq, Inhabited, Repr

namespace Obstacle

/-- The obstacle in words. -/
def message : Obstacle → String
  | cannotLoadSettings => "Failed to load configuration"
  | cannotRead path => "Failed to read " ++ path
  | cannotReadInput => "Failed to read source from stdin"
  | cannotWrite path => "Failed to write " ++ path
  | cannotCreate path => "Failed to create " ++ path
  | other reason => reason.message

end Obstacle

end CallAtlas
