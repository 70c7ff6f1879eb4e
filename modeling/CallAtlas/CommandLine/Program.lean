import CallAtlas.Command.Run
import CallAtlas.CommandLine.Request

/-!
# The program

The program does what its command line asks for, and tells by a number how it went.
-/

namespace CallAtlas.CommandLine

variable {m : Type → Type} [Monad m] [Host m]

/-- The number for a command line that asks for nothing that could be done. -/
def misuseCode : Nat := 2

/-- The number for a command that could not be done. -/
def obstacleCode : Nat := 1

/-- What is told about a misuse. -/
def misuseText (reason : Misuse) : String :=
  "error: " ++ reason.message ++ "\n\nUsage: " ++ programName ++ programUsage ++
    "\n\nFor more information, try '--help'.\n"

/-- Runs the program with the words of its command line. Returns the number for how it went. -/
def runProgram (grammar : Syntax.Grammar) (words : List String) : m Nat := do
  match Request.ofWords words with
  | .explain text =>
    Host.print text
    return 0
  | .misuse reason =>
    Host.complain (misuseText reason)
    return misuseCode
  | .run settingsPath command =>
    let outcome ← ((do
      let analyzer ← Analyzer.ofSettingsFile grammar settingsPath
      analyzer.run command) : ExceptT Obstacle m Status).run
    match outcome with
    | .ok status => return status.exitCode
    | .error obstacle =>
      Host.complain ("Error: " ++ obstacle.message ++ "\n")
      return obstacleCode

end CallAtlas.CommandLine
