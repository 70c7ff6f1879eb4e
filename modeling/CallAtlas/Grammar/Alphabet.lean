import CallAtlas.Grammar.Bits
import CallAtlas.Grammar.Pattern

/-!
# Classes of characters

Two characters that lie in the same sets of a lexicon can stand for each other. An `Alphabet`
numbers the classes of such characters, so that an automaton steps on fewer than 128 classes
instead of on all characters.
-/

namespace CallAtlas.Grammar

/-- The classes into which a family of sets divides the characters. -/
structure Alphabet where
  /-- Ascending first code points of the intervals on which the class is constant. -/
  starts : Array Nat
  /-- The class of each interval. -/
  classes : Array Nat
  /-- The classes of the first 128 code points. -/
  ascii : Array Nat
  /-- How many classes there are. -/
  count : Nat
deriving Inhabited

namespace Alphabet

/-- The index of the last interval that starts at or before `c`, by bisection. -/
def intervalOf (starts : Array Nat) (c : Nat) : Nat :=
  let (low, _) := (List.range 32).foldl (fun (low, high) _ =>
    if high ≤ low + 1 then (low, high) else
      let mid := (low + high) / 2
      if starts.getD mid 0 ≤ c then (mid, high) else (low, mid)) (0, starts.size)
  low

/-- The class of the character with code point `c`. -/
def classOf (a : Alphabet) (c : Nat) : Nat :=
  if c < 128 then a.ascii.getD c 0 else a.classes.getD (intervalOf a.starts c) 0

/-- The classes whose characters lie in the set. -/
def classesOf (a : Alphabet) (set : CharSet) : Bits :=
  set.foldl (fun acc r =>
    let first := intervalOf a.starts r.1
    let last := intervalOf a.starts r.2
    (List.range' first (last + 1 - first)).foldl (fun b i => b.insert (a.classes.getD i 0)) acc)
    .empty

/-- The coarsest classes that a family of at most 128 sets cannot tell apart. -/
def ofSets (sets : Array CharSet) : Alphabet := Id.run do
  let mut bounds : Array Nat := #[0]
  for s in sets do
    for (first, last) in s do
      bounds := bounds.push first
      if last < 0x10FFFF then bounds := bounds.push (last + 1)
  let sorted := bounds.qsort (· < ·)
  let mut starts : Array Nat := #[]
  for b in sorted do
    if starts.back? != some b then starts := starts.push b
  let mut marks : Array Bits := Array.replicate starts.size .empty
  for (s, i) in sets.zipIdx do
    for (first, last) in s do
      let lo := intervalOf starts first
      let hi := intervalOf starts last
      for k in [lo:hi + 1] do
        marks := marks.modify k (·.insert i)
  let mut seen : Array Bits := #[]
  let mut classes : Array Nat := #[]
  for m in marks do
    match seen.findIdx? (· == m) with
    | some c => classes := classes.push c
    | none =>
      classes := classes.push seen.size
      seen := seen.push m
  let found : Alphabet := { starts, classes, ascii := #[], count := seen.size }
  let ascii := (Array.range 128).map fun c => found.classes.getD (intervalOf starts c) 0
  return { found with ascii }

end Alphabet

end CallAtlas.Grammar
