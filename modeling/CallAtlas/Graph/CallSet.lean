import CallAtlas.Graph.Names

/-!
# Calls by function

A `CallSet` maps the name of each function to the names of the functions that it calls. Only functions
of the set are callees.
-/

namespace CallAtlas.Graph

/-- The names of the functions that each function calls. -/
structure CallSet where
  calls : Std.ExtTreeMap String NameSet
deriving BEq

namespace CallSet

/-- No functions. -/
def empty : CallSet := ⟨∅⟩

instance : Inhabited CallSet := ⟨empty⟩

/-- Whether the function is in the set. -/
def contains (c : CallSet) (name : String) : Bool := c.calls.contains name

/-- What a function of the set calls. -/
def callees? (c : CallSet) (name : String) : Option NameSet := c.calls[name]?

/-- The functions in ascending order. -/
def names (c : CallSet) : List String := c.calls.keys

/-- The functions with their callees, in ascending order. -/
def toList (c : CallSet) : List (String × NameSet) := c.calls.toList

/-- How many functions there are. -/
def size (c : CallSet) : Nat := c.calls.size

/-- Whether there is no function. -/
def isEmpty (c : CallSet) : Bool := c.calls.isEmpty

/-- How many pairs of a caller and a callee there are. -/
def callCount (c : CallSet) : Nat :=
  c.toList.foldl (fun count (_, callees) => count + callees.size) 0

/-- Adds a function without calls. A function of the set keeps its calls. -/
def insertFunction (c : CallSet) (name : String) : CallSet :=
  ⟨c.calls.insertIfNew name ∅⟩

/-- Gives a function of the set new calls. Callees that are not in the set are left out. -/
def setCallees (c : CallSet) (name : String) (callees : NameSet) : CallSet :=
  if c.contains name then ⟨c.calls.insert name (callees.filter c.contains)⟩ else c

end CallSet

end CallAtlas.Graph
