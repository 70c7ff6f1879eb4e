import CallAtlas.Command.Host
import CallAtlas.Settings.Document

/-!
# Settings in files
-/

namespace CallAtlas.Settings

variable {m : Type → Type} [Monad m] [Host m]

/-- The names under which a settings file is looked for, in this order. -/
def fileNames : List String := ["Navigator.toml", "navigator.toml", ".navigator.toml"]

/-- The name that a new settings file gets. -/
def newFileName : String := "Navigator.toml"

/-- The settings in a file. -/
def load (path : String) : m (Except Failure Settings) := do
  match ← Host.readText path with
  | .ok text => return ofDocument text
  | .error e => return .error (.file e)

/-- The settings in the first of some files that exists; the plain settings if none does. -/
def loadFirst : List String → m (Except Failure Settings)
  | [] => return .ok {}
  | path :: paths => do
    if ← Host.present path then load path else loadFirst paths

/-- The settings in the file at a path if there is one. Without a path the usual names are tried. -/
def find (path : Option String) : m (Except Failure Settings) :=
  loadFirst (match path with
    | some path => [path]
    | none => fileNames)

/-- Keeps settings in a file. -/
def save (settings : Settings) (path : String) : m (Except Failure Unit) := do
  match settings.toDocument with
  | .error failure => return .error failure
  | .ok text =>
    match ← Host.writeText path text with
    | .ok () => return .ok ()
    | .error e => return .error (.file e)

end CallAtlas.Settings
