/-!
# JSON values

A number is kept as it is written, since what counts as a natural number depends on that: `1.0` and
`1e2` are none.
-/

namespace CallAtlas

/-- A JSON value. -/
inductive Json where
  | null
  | bool (value : Bool)
  /-- A number as it is written. -/
  | number (literal : String)
  | string (value : String)
  | array (items : List Json)
  /-- The members of an object in their order. -/
  | object (members : List (String × Json))
deriving Inhabited, Repr

namespace Json

/-- A natural number. -/
def natural (n : Nat) : Json := .number (toString n)

/-- An array of texts. -/
def strings (ss : List String) : Json := .array (ss.map .string)

/-- The decimal digits of a text, as a number. -/
def digitsValue (digits : List Char) : Nat :=
  digits.foldl (fun n c => 10 * n + (c.toNat - 48)) 0

/-- The natural number below 2^64 that the value is: one written with digits only. -/
def natural? : Json → Option Nat
  | number literal =>
    let digits := literal.toList
    let n := digitsValue digits
    if !digits.isEmpty && digits.all Char.isDigit && n < UInt64.size then some n else none
  | _ => none

/-- The truth value that the value is. -/
def bool? : Json → Option Bool
  | bool b => some b
  | _ => none

/-- The text that the value is. -/
def string? : Json → Option String
  | string s => some s
  | _ => none

/-- The items of an array. -/
def array? : Json → Option (List Json)
  | array items => some items
  | _ => none

/-- The members of an object. -/
def object? : Json → Option (List (String × Json))
  | object members => some members
  | _ => none

/-- The member of an object with a name; of several the last one. -/
def member? (j : Json) (name : String) : Option Json :=
  j.object?.bind fun members => (members.reverse.find? (·.1 == name)).map (·.2)

/-- The texts in an array of texts. -/
def strings? (j : Json) : Option (List String) := j.array?.bind (·.mapM string?)

end Json

end CallAtlas
