import CallAtlas.Failure
import CallAtlas.Text.LowerCase

/-!
# Formats of listings
-/

namespace CallAtlas

/-- The form in which a result is written. -/
inductive Format where
  | text
  | json
  | dot
deriving DecidableEq, Inhabited, Repr

namespace Format

/-- The format with a name. Upper and lower case make no difference. -/
def ofName (name : String) : Except Failure Format :=
  match Text.lowerCase name with
  | "text" => .ok .text
  | "txt" => .ok .text
  | "json" => .ok .json
  | "dot" => .ok .dot
  | "graphviz" => .ok .dot
  | other => .error (.settings (.unknownFormat other))

end Format

end CallAtlas
