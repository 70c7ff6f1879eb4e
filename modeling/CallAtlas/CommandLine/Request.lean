import CallAtlas.CommandLine.Manual

/-!
# Requests

What a command line asks for.
-/

namespace CallAtlas.CommandLine

/-- What a command line asks for. -/
inductive Request where
  /-- To run a command with the settings in a file. -/
  | run (settingsPath : Option String) (command : Command)
  /-- To be told something. -/
  | explain (text : String)
  /-- Nothing that could be done. -/
  | misuse (reason : Misuse)
deriving DecidableEq, Inhabited, Repr

namespace Request

/-- The request behind a halt, with the help that belongs to the place. -/
def ofHalt (help : String) : Halt → Request
  | .help => explain help
  | .version => explain versionText
  | .misuse reason => misuse reason

/-- The request for explanations of some commands. -/
def ofHelpWords : List String → Request
  | [] => explain programHelp
  | [name] =>
    if name = helpName then explain helpHelp
    else
      match manuals.find? (·.name == name) with
      | some m => explain m.help
      | none => misuse (.unknownCommand name)
  | name :: next :: _ =>
    if name = helpName || manuals.any (·.name == name) then misuse (.unknownCommand next)
    else misuse (.unknownCommand name)

/-- The request for a command by the words after its name. -/
def ofCommandWords (settingsPath : Option String) (m : Manual) (words : List String) : Request :=
  match readWords m.allSwitches (if m.takesInput then .take else .refuse) words.length {} words with
  | .error halt => ofHalt m.help halt
  | .ok (given, _) =>
    match m.commandOf given with
    | .ok command => run settingsPath command
    | .error halt => ofHalt m.help halt

/-- The request that some words make. -/
def ofWords (words : List String) : Request :=
  match readWords programSwitches .leave words.length {} words with
  | .error halt => ofHalt programHelp halt
  | .ok (_, []) => misuse .missingCommand
  | .ok (given, name :: words) =>
    if name = helpName then ofHelpWords words
    else
      match manuals.find? (·.name == name) with
      | some m => ofCommandWords (given.value? "config") m words
      | none => misuse (.unknownCommand name)

end Request

end CallAtlas.CommandLine
