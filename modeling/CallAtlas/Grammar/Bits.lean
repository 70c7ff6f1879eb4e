/-!
# Sets of small numbers

A `Bits` is a set of numbers below 128, kept in two machine words. The tokens of the
grammar and its character classes are both fewer than that, so every set the table
construction works with is a `Bits`.
-/

namespace CallAtlas.Grammar

/-- A set of numbers below 128: `low` holds 0 to 63 and `high` holds 64 to 127. -/
structure Bits where
  low : UInt64
  high : UInt64
deriving BEq, Hashable, Inhabited

namespace Bits

/-- The set without members. -/
def empty : Bits := ⟨0, 0⟩

/-- The set whose only member is `n`. -/
def single (n : Nat) : Bits :=
  if n < 64 then ⟨1 <<< n.toUInt64, 0⟩ else ⟨0, 1 <<< (n - 64).toUInt64⟩

/-- Members of either set. -/
def union (a b : Bits) : Bits := ⟨a.low ||| b.low, a.high ||| b.high⟩

/-- Members of both sets. -/
def inter (a b : Bits) : Bits := ⟨a.low &&& b.low, a.high &&& b.high⟩

/-- Members of the first set that are not in the second. -/
def diff (a b : Bits) : Bits := ⟨a.low &&& ~~~b.low, a.high &&& ~~~b.high⟩

/-- Whether `n` is a member. -/
def has (a : Bits) (n : Nat) : Bool :=
  if n < 64 then (a.low >>> n.toUInt64) &&& 1 == 1 else (a.high >>> (n - 64).toUInt64) &&& 1 == 1

/-- The set with `n` added. -/
def insert (a : Bits) (n : Nat) : Bits := a.union (single n)

/-- Whether the set has no member. -/
def isEmpty (a : Bits) : Bool := a.low == 0 && a.high == 0

/-- Whether the two sets share a member. -/
def meets (a b : Bits) : Bool := !(a.inter b).isEmpty

/-- The members in ascending order. -/
def toList (a : Bits) : List Nat :=
  if a.isEmpty then [] else (List.range 128).filter a.has

/-- The set of the listed numbers. -/
def ofList (ns : List Nat) : Bits := ns.foldl insert empty

end Bits

end CallAtlas.Grammar
