import CallAtlas.Analysis
import CallAtlas.Command.Basic
import CallAtlas.Listing.Report
import CallAtlas.Settings.Storage

/-!
# Running commands

A command first makes sure that its arguments are in order, then reads the program, then works out its
result, and only then writes. Whatever ends it earlier leaves the files and the output as they are.
-/

namespace CallAtlas

open Text

namespace Analyzer

variable {m : Type → Type} [Monad m] [Host m]

/-- An analyzer with the settings in a file. -/
def ofSettingsFile (grammar : Syntax.Grammar) (path : Option String) :
    ExceptT Obstacle m Analyzer := do
  match ← (Settings.find path : m _) with
  | .ok settings => return { grammar, settings }
  | .error _ => throw .cannotLoadSettings

/-- The program that is named as input. -/
def readProgram (input : String) : ExceptT Obstacle m Source := do
  if isStandardInput input then
    match ← (Host.readInputText : m _) with
    | .ok text => return .ofText text
    | .error _ => throw .cannotReadInput
  else
    match ← (Host.readText input : m _) with
    | .ok text => return .ofText text
    | .error _ => throw (.cannotRead input)

/-- Writes a result to a file, or to the output if no file is named. -/
def deliver (output : Option String) (text : String) : ExceptT Obstacle m Status := do
  match output with
  | none =>
    (Host.print (text ++ "\n") : m _)
    return .success
  | some path =>
    match ← (Host.writeText path (text ++ "\n") : m _) with
    | .ok () => return .success
    | .error _ => throw (.cannotWrite path)

/-- Ends a command with a notice. -/
def give (status : Status) (notice : String) : ExceptT Obstacle m Status := do
  (Host.complain (notice ++ "\n") : m _)
  return status

/-- Ends a command for a failure. -/
def giveUp (failure : Failure) : ExceptT Obstacle m Status :=
  match failure with
  | .syntaxError _ => give .parseFailed failure.message
  | _ => give .failed ("Analysis failed: " ++ failure.message)

/-- Reads a program, analyzes it, and writes what is made of the analysis. -/
def report (a : Analyzer) (input : String) (output : Option String) (render : Analysis → String) :
    ExceptT Obstacle m Status := do
  let source ← readProgram input
  match a.analyze source with
  | .found analysis => deliver output (render analysis)
  | .nothingFound => give .nothingFound "No function definitions found."
  | .parseFailed diagnostic => giveUp (.syntaxError diagnostic)
  | .failed reason => giveUp reason

/-- The format with a name. -/
def formatNamed (name : String) : ExceptT Obstacle m Format :=
  match Format.ofName name with
  | .ok format => return format
  | .error failure => throw (.other failure)

/-- The format that is asked for, or else the usual one for listings. -/
def listingFormat (a : Analyzer) (format : Option String) : ExceptT Obstacle m Format :=
  formatNamed (format.getD a.settings.output.format)

/-- The directory in which a settings file is made, with the path of the file. -/
def settingsPlace (directory : Option String) : String × String :=
  let directory := directory.getD "."
  (directory,
    if directory.isEmpty || directory.endsWith "/" then directory ++ Settings.newFileName
    else directory ++ "/" ++ Settings.newFileName)

/-- Makes a file with the plain settings. -/
def createSettings (directory : Option String) (force : Bool) : ExceptT Obstacle m Status := do
  let (directory, path) := settingsPlace directory
  if (← (Host.present path : m _)) && !force then return .failed
  match ← (Host.createDirectory directory : m _) with
  | .error _ => throw (.cannotCreate directory)
  | .ok () =>
    match ← (Settings.save {} path : m _) with
    | .ok () => return .success
    | .error failure => throw (.other failure)

/-- Runs a command. -/
def run (a : Analyzer) : Command → ExceptT Obstacle m Status
  | .functions input format withoutSource => do
    let format ← a.listingFormat format
    let includeSource := a.settings.output.includeSource && !withoutSource
    a.report input none fun analysis =>
      Listing.functions includeSource format analysis.extraction
  | .calls input format => do
    let format ← a.listingFormat format
    a.report input none fun analysis => Listing.calls format analysis.extraction
  | .graph input format output => do
    let format ← match format with
      | some name => formatNamed name
      | none => pure .dot
    a.report input output fun analysis =>
      match format with
      | .json => analysis.graph.toJson.pretty
      | .text | .dot => a.dot analysis
  | .stats input format => do
    let format ← a.listingFormat format
    a.report input none fun analysis => Listing.statistics format analysis.graph
  | .deps input output => do
    let source ← readProgram input
    match a.dependencies source with
    | .ok graph =>
      if graph.nodeCount = 0 then
        give .nothingFound "No function or class definitions found."
      else deliver output (graph.toDot a.settings.graph)
    | .error failure => giveUp failure
  | .init directory force => createSettings directory force

end Analyzer

end CallAtlas
