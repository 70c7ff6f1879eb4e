/-!
# Settings

What can be set, and what holds where nothing is set.
-/

namespace CallAtlas

/-- Which definition's calls count for a name that is defined more than once. -/
inductive DuplicatePolicy where
  | lastWins
  | firstWins
  /-- Such a program is refused. -/
  | reject
deriving DecidableEq, Inhabited, Repr

namespace DuplicatePolicy

/-- The name of a policy in a settings file. -/
def name : DuplicatePolicy → String
  | lastWins => "last-wins"
  | firstWins => "first-wins"
  | reject => "reject"

/-- The policy with a name. -/
def ofName? : String → Option DuplicatePolicy
  | "last-wins" => some lastWins
  | "first-wins" => some firstWins
  | "reject" => some reject
  | _ => none

/-- A policy is known by its name. -/
theorem ofName?_name (p : DuplicatePolicy) : ofName? p.name = some p := by
  cases p <;> rfl

end DuplicatePolicy

/-- How programs are read. -/
structure ParsingSettings where
  /-- The most bytes a program may have. -/
  maxFileSize : Nat := 1048576
  /-- The most levels below the root a syntax tree may have. -/
  maxDepth : Nat := 1000
  duplicatePolicy : DuplicatePolicy := .lastWins
deriving DecidableEq, Inhabited, Repr

/-- How graphs are drawn. -/
structure GraphStyle where
  name : String := "G"
  /-- The direction in which a graph is laid out. -/
  rankdir : String := "LR"
  nodeShape : String := "box"
  nodeStyle : String := "rounded,filled"
  fillColor : String := "skyblue"
  /-- The colour of classes. -/
  classFillColor : String := "lightgreen"
deriving DecidableEq, Inhabited, Repr

/-- How listings are written. -/
structure OutputSettings where
  format : String := "text"
  /-- Whether functions are listed with their source. -/
  includeSource : Bool := true
deriving DecidableEq, Inhabited, Repr

/-- All settings. -/
structure Settings where
  parsing : ParsingSettings := {}
  graph : GraphStyle := {}
  output : OutputSettings := {}
deriving DecidableEq, Inhabited, Repr

end CallAtlas
