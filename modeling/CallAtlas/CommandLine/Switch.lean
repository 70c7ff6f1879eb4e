/-!
# Words of a command line

A switch is known by a word after two dashes, and some switches also by a letter after one. The value
of a switch stands behind an equals sign or in the next word; behind a letter it may follow at once.
Letters of switches without values can be put together. After two dashes alone there are only arguments.
-/

namespace CallAtlas.CommandLine

/-- What is wrong with a command line. -/
inductive Misuse where
  | unknownSwitch (word : String)
  | missingValue (switch : String)
  | unexpectedValue (switch : String)
  | repeatedSwitch (switch : String)
  | emptyPath
  | unexpectedArgument (word : String)
  | missingInput
  | missingCommand
  | unknownCommand (word : String)
deriving DecidableEq, Inhabited, Repr

namespace Misuse

/-- What is wrong, in words. -/
def message : Misuse → String
  | unknownSwitch word => "unexpected argument '" ++ word ++ "' found"
  | missingValue switch => "a value is required for '--" ++ switch ++ "' but none was supplied"
  | unexpectedValue switch => "unexpected value for '--" ++ switch ++ "' found"
  | repeatedSwitch switch => "the argument '--" ++ switch ++ "' cannot be used multiple times"
  | emptyPath => "a path must not be empty"
  | unexpectedArgument word => "unexpected argument '" ++ word ++ "' found"
  | missingInput => "the input was not provided"
  | missingCommand => "a command was not provided"
  | unknownCommand word => "unrecognized command '" ++ word ++ "'"

end Misuse

/-- What a switch is for. -/
inductive Purpose where
  /-- To be there or not. -/
  | mark
  /-- To give a text. -/
  | text (placeholder : String)
  /-- To give a path, which must not be empty. -/
  | path (placeholder : String)
  /-- To ask for help. -/
  | help
  /-- To ask for the version. -/
  | version
deriving DecidableEq, Inhabited, Repr

/-- A switch that can be given. -/
structure Switch where
  letter : Option Char := none
  word : String
  purpose : Purpose := .mark
  explanation : String
deriving DecidableEq, Inhabited, Repr

namespace Switch

/-- What stands for the value of the switch in an explanation, if it takes one. -/
def placeholder? (s : Switch) : Option String :=
  match s.purpose with
  | .text placeholder => some placeholder
  | .path placeholder => some placeholder
  | _ => none

end Switch

/-- Why the words are not read to their end. -/
inductive Halt where
  | help
  | version
  | misuse (reason : Misuse)
deriving DecidableEq, Inhabited, Repr

/-- What the words have given so far. -/
structure Given where
  /-- The switches by their words, with their values. -/
  switches : List (String × Option String) := []
  input : Option String := none
deriving DecidableEq, Inhabited, Repr

namespace Given

/-- Whether a switch is given. -/
def has (g : Given) (switch : String) : Bool := g.switches.any (·.1 == switch)

/-- The value of a switch. -/
def value? (g : Given) (switch : String) : Option String :=
  (g.switches.find? (·.1 == switch)).bind (·.2)

/-- Adds a switch with its value. -/
def add (g : Given) (s : Switch) (value : Option String) : Except Halt Given :=
  match s.purpose with
  | .help => .error .help
  | .version => .error .version
  | .path _ =>
    if g.has s.word then .error (.misuse (.repeatedSwitch s.word))
    else if value == some "" then .error (.misuse .emptyPath)
    else .ok { g with switches := (s.word, value) :: g.switches }
  | _ =>
    if g.has s.word then .error (.misuse (.repeatedSwitch s.word))
    else .ok { g with switches := (s.word, value) :: g.switches }

/-- Adds the input. -/
def addInput (g : Given) (word : String) : Except Halt Given :=
  if g.input.isSome then .error (.misuse (.unexpectedArgument word))
  else if word.isEmpty then .error (.misuse .emptyPath)
  else .ok { g with input := some word }

end Given

/-- A word of a command line by its form. -/
inductive Word where
  | separator
  | long (name : String) (value : Option String)
  | letters (first : Char) (rest : List Char)
  | argument
deriving DecidableEq, Inhabited, Repr

namespace Word

/-- The form of a word. -/
def ofString (s : String) : Word :=
  match s.toList with
  | ['-', '-'] => separator
  | '-' :: '-' :: cs =>
    let name := cs.takeWhile (· != '=')
    long (String.ofList name)
      (match cs.drop name.length with
      | [] => none
      | _ :: value => some (String.ofList value))
  | '-' :: c :: cs => letters c cs
  | _ => argument

end Word

/-- Adds a switch whose value is attached to it or else is the next word, which must not look like a
switch. Returns the words that are left. -/
def addSwitch (g : Given) (s : Switch) (attached : Option String) (words : List String) :
    Except Halt (Given × List String) :=
  match s.placeholder?, attached, words with
  | none, none, _ => return (← g.add s none, words)
  | none, some _, _ => .error (.misuse (.unexpectedValue s.word))
  | some _, some value, _ => return (← g.add s (some value), words)
  | some _, none, next :: rest =>
    if Word.ofString next == .argument then return (← g.add s (some next), rest)
    else .error (.misuse (.missingValue s.word))
  | some _, none, [] => .error (.misuse (.missingValue s.word))

/-- Adds the switches of some letters behind one dash. -/
def addLetters (switches : List Switch) :
    Given → List Char → List String → Except Halt (Given × List String)
  | g, [], words => .ok (g, words)
  | g, c :: cs, words =>
    match switches.find? (·.letter == some c) with
    | none => .error (.misuse (.unknownSwitch (String.ofList ['-', c])))
    | some s =>
      match s.placeholder? with
      | none => do addLetters switches (← g.add s none) cs words
      | some _ =>
        let attached := match cs with
          | [] => none
          | '=' :: value => some (String.ofList value)
          | value => some (String.ofList value)
        addSwitch g s attached words

/-- What is done with arguments. -/
inductive ArgumentUse where
  /-- The first one ends the reading. -/
  | leave
  | refuse
  /-- There is to be one, the input. -/
  | take
deriving DecidableEq, Inhabited, Repr

/-- Reads words. `fuel` bounds their number. Returns the words that are left. -/
def readWords (switches : List Switch) (use : ArgumentUse) :
    Nat → Given → List String → Except Halt (Given × List String)
  | 0, g, words => .ok (g, words)
  | _, g, [] => .ok (g, [])
  | fuel + 1, g, word :: words =>
    match Word.ofString word with
    | .long name value =>
      match switches.find? (·.word == name) with
      | none => .error (.misuse (.unknownSwitch word))
      | some s => do
        let (g, words) ← addSwitch g s value words
        readWords switches use fuel g words
    | .letters first rest => do
      let (g, words) ← addLetters switches g (first :: rest) words
      readWords switches use fuel g words
    | .separator =>
      match use with
      | .leave => .ok (g, word :: words)
      | .refuse =>
        match words with
        | [] => .ok (g, [])
        | next :: _ => .error (.misuse (.unexpectedArgument next))
      | .take => return (← words.foldlM Given.addInput g, [])
    | .argument =>
      match use with
      | .leave => .ok (g, word :: words)
      | .refuse => .error (.misuse (.unexpectedArgument word))
      | .take => do readWords switches use fuel (← g.addInput word) words

end CallAtlas.CommandLine
