/-!
# TOML values

A table remembers how it came to be, since that decides what may be added to it later on: a table
written as a value is complete, one with a header of its own cannot get another, and one that dotted keys
have made can grow by dotted keys only.
-/

namespace CallAtlas

namespace Toml

/-- How a table came to be. -/
inductive Origin where
  /-- Written as a value. -/
  | inlined
  /-- By a header of its own. -/
  | header
  /-- By the header of a table below it. -/
  | implied
  /-- By a dotted key. -/
  | dotted
deriving DecidableEq, Inhabited, Repr

end Toml

/-- A value of a TOML document. Of floating point numbers and of dates and times only the type is
kept. -/
inductive Toml where
  | string (value : String)
  | integer (value : Int)
  | float
  | boolean (value : Bool)
  | dateTime
  | array (items : List Toml)
  | table (origin : Toml.Origin) (members : List (String × Toml))
  /-- Tables that share a header in double brackets. -/
  | tables (items : List (List (String × Toml)))
deriving Inhabited, Repr

namespace Toml

/-- The members of a table with their keys. -/
abbrev Members := List (String × Toml)

namespace Members

/-- The member with a key. -/
def get? (ms : Members) (key : String) : Option Toml := (ms.find? (·.1 == key)).map (·.2)

/-- Gives a key a value, at the end if the key is new. -/
def set (ms : Members) (key : String) (value : Toml) : Members :=
  if ms.any (·.1 == key) then ms.map fun m => if m.1 == key then (key, value) else m
  else ms ++ [(key, value)]

/-- Adds a member with a new key. -/
def add? (ms : Members) (key : String) (value : Toml) : Option Members :=
  if ms.any (·.1 == key) then none else some (ms ++ [(key, value)])

/-- Changes the table at the end of a path of keys, making the tables on the way that do not exist yet.
`byDots` says whether the path is that of a dotted key; such a path must not lead through tables that have
headers or are complete. Of tables that share a header the last one is meant. -/
def alter (byDots : Bool) (f : Origin → Members → Option Members) :
    List String → Origin → Members → Option Members
  | [], origin, ms => f origin ms
  | key :: path, _, ms => do
    match ms.get? key with
    | none =>
      let origin := if byDots then Origin.dotted else .implied
      return ms.set key (.table origin (← alter byDots f path origin []))
    | some (.table origin inner) =>
      if origin == .inlined || (byDots && origin == .header) then failure
      return ms.set key (.table origin (← alter byDots f path origin inner))
    | some (.tables items) =>
      if byDots then failure
      let inner := items.getLastD []
      return ms.set key (.tables (items.dropLast ++ [← alter byDots f path .header inner]))
    | some _ => failure

/-- Adds a member under a dotted key. -/
def addDotted (ms : Members) (path : List String) (key : String) (value : Toml) :
    Option Members :=
  ms.alter true (fun origin inner =>
    if (origin == .dotted) == path.isEmpty then none else inner.add? key value) path .header

end Members

end Toml

end CallAtlas
