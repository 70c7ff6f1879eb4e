import CallAtlas.Command.Basic
import CallAtlas.CommandLine.Switch

/-!
# The manual

The commands that can be given on a command line, with their switches, and their explanations.
-/

namespace CallAtlas.CommandLine

/-- The name of the program. -/
def programName : String := "code-navigator"

/-- What the program tells about its version. -/
def versionText : String := programName ++ " 0.1.0\n"

/-- What the program is for. -/
def programExplanation : String := "Static call-graph navigator for Python source files"

/-- Asks for help. -/
def helpSwitch : Switch :=
  { letter := some 'h', word := "help", purpose := .help, explanation := "Print help" }

/-- The switches that stand before the command. -/
def programSwitches : List Switch :=
  [{ letter := some 'c', word := "config", purpose := .path "CONFIG",
     explanation := "Path to configuration file" },
   { letter := some 'v', word := "verbose", explanation := "Enable verbose logging" },
   helpSwitch,
   { letter := some 'V', word := "version", purpose := .version, explanation := "Print version" }]

/-- Chooses the format of a listing among those named. -/
def formatSwitch (formats : String) : Switch :=
  { letter := some 'f', word := "format", purpose := .text "FORMAT",
    explanation := "Output format (" ++ formats ++ ")" }

/-- Names the file for the result. -/
def outputSwitch : Switch :=
  { letter := some 'o', word := "output", purpose := .path "OUTPUT",
    explanation := "Output file (defaults to stdout)" }

/-- How a command is given. -/
structure Manual where
  name : String
  explanation : String
  takesInput : Bool := true
  switches : List Switch
  /-- The command with an input and switches. -/
  command : String → Given → Command

namespace Manual

/-- All switches of a command. -/
def allSwitches (m : Manual) : List Switch := m.switches ++ [helpSwitch]

/-- The command that is given. -/
def commandOf (m : Manual) (g : Given) : Except Halt Command :=
  match g.input with
  | some input => .ok (m.command input g)
  | none => if m.takesInput then .error (.misuse .missingInput) else .ok (m.command "" g)

end Manual

/-- All commands. -/
def manuals : List Manual :=
  [{ name := "functions"
     explanation := "List function definitions with their line ranges and source"
     switches :=
       [formatSwitch "text, json",
        { word := "no-source", explanation := "Omit each function's source text" }]
     command := fun input g => .functions input (g.value? "format") (g.has "no-source") },
   { name := "calls"
     explanation := "List the same-file functions each function calls"
     switches := [formatSwitch "text, json"]
     command := fun input g => .calls input (g.value? "format") },
   { name := "graph"
     explanation := "Render the call graph"
     switches := [formatSwitch "dot, json", outputSwitch]
     command := fun input g => .graph input (g.value? "format") (g.value? "output") },
   { name := "stats"
     explanation := "Summarise the call graph: entry points, cycles, degrees"
     switches := [formatSwitch "text, json"]
     command := fun input g => .stats input (g.value? "format") },
   { name := "deps"
     explanation := "Render the class and function dependency graph"
     switches := [outputSwitch]
     command := fun input g => .deps input (g.value? "output") },
   { name := "init"
     explanation := "Write a default configuration file"
     takesInput := false
     switches :=
       [{ letter := some 'p', word := "path", purpose := .path "PATH",
          explanation := "Target directory (defaults to current directory)" },
        { word := "force", explanation := "Overwrite an existing configuration" }]
     command := fun _ g => .init (g.value? "path") (g.has "force") }]

/-- The name of the command that explains the others. -/
def helpName : String := "help"

/-- What that command is for. -/
def helpExplanation : String := "Print this message or the help of the given subcommand(s)"

/-- The switch as it is written, with room for a letter if it has none. -/
def Switch.label (s : Switch) : String :=
  (match s.letter with
  | some c => String.ofList ['-', c, ',', ' ']
  | none => "    ") ++ "--" ++ s.word ++
  (match s.placeholder? with
  | some placeholder => " <" ++ placeholder ++ ">"
  | none => "")

/-- A heading with labels and their explanations in two columns. -/
def table (heading : String) (rows : List (String × String)) : String :=
  let width := (rows.map (·.1.length)).foldl max 0
  heading ++ ":\n" ++ String.join (rows.map fun (label, explanation) =>
    "  " ++ label ++ String.ofList (List.replicate (width - label.length + 2) ' ') ++
      explanation ++ "\n")

/-- The table of some switches. -/
def switchTable (switches : List Switch) : String :=
  table "Options" (switches.map fun s => (s.label, s.explanation))

/-- An explanation: what something is for, how it is used, and some tables. -/
def page (explanation usage : String) (tables : List String) : String :=
  explanation ++ "\n\nUsage: " ++ programName ++ usage ++ "\n\n" ++ "\n".intercalate tables

/-- How the program is used. -/
def programUsage : String := " [OPTIONS] <COMMAND>"

/-- The explanation of the program. -/
def programHelp : String :=
  page programExplanation programUsage
    [table "Commands"
      (manuals.map (fun m => (m.name, m.explanation)) ++ [(helpName, helpExplanation)]),
     switchTable programSwitches]

/-- The explanation of a command. -/
def Manual.help (m : Manual) : String :=
  page m.explanation (" " ++ m.name ++ " [OPTIONS]" ++ if m.takesInput then " <INPUT>" else "")
    ((if m.takesInput then [table "Arguments" [("<INPUT>", "Source file, or - for stdin")]]
      else []) ++ [switchTable m.allSwitches])

/-- The explanation of the command that explains the others. -/
def helpHelp : String :=
  page helpExplanation (" " ++ helpName ++ " [COMMAND]...")
    [table "Arguments" [("[COMMAND]...", "Print help for the subcommand(s)")]]

end CallAtlas.CommandLine
