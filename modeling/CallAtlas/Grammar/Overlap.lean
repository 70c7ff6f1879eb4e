import CallAtlas.Grammar.Lexicon

/-!
# How tokens get in each other's way

For every two tokens of a lexicon an `Overlap` says how one can be mistaken for the other: they
match the same text, one is the beginning of the other, or one can absorb what follows the other.
Which tokens may be looked for together, and which parser states may be merged, depends on it.
-/

namespace CallAtlas.Grammar

/-- What a token does to another token. -/
structure Overlap where
  /-- It stops where the other would read on, and stopping wins. -/
  stopsShort : Bool := false
  /-- It reads on where the other is complete, and reading on wins. -/
  readsOn : Bool := false
  /-- It reads on with a character that can follow the other token. -/
  readsFollower : Bool := false
  /-- It is complete where blanks can still be read. -/
  spansBlanks : Bool := false
  /-- It wins on a text that both match. -/
  winsText : Bool := false
  /-- It matches a text that the other does not. -/
  hasOwnText : Bool := false
deriving BEq, Inhabited

/-- The overlaps of all ordered pairs of tokens. -/
structure Overlaps where
  count : Nat
  entries : Array Overlap
deriving Inhabited

namespace Overlaps

/-- What token `i` does to token `j`. -/
def of (o : Overlaps) (i j : Nat) : Overlap := o.entries.getD (i * o.count + j) default

/-- Token `i` can be read in the place of token `j`. -/
def conflicts (o : Overlaps) (i j : Nat) : Bool :=
  let e := o.of i j
  e.readsFollower || e.spansBlanks || e.winsText

/-- The tokens `i` and `j` have texts in common, or one begins the other. -/
def touches (o : Overlaps) (i j : Nat) : Bool :=
  let e := o.of i j
  e.spansBlanks || e.stopsShort || e.winsText || e.readsOn

/-- Token `i` can end at another place than token `j` would. -/
def endsElsewhere (o : Overlaps) (i j : Nat) : Bool :=
  let e := o.of i j
  (e.readsFollower || e.spansBlanks) && !(o.of j i).spansBlanks

/-- Explores the texts that two tokens have in common. `followers` holds the characters that can
follow each token. -/
def compare (x : Lexicon) (followers : Array Bits) (i j : Nat) : Overlap × Overlap := Id.run do
  let mut a : Overlap := {}
  let mut b : Overlap := {}
  let mut seen : List (List Nat) := []
  let mut todo := [[x.entry.getD i 0, x.entry.getD j 0].mergeSort]
  for _ in [0:4 * x.states.size] do
    match todo with
    | [] => break
    | states :: rest =>
      todo := rest
      match x.ownersOf states with
      | [only] =>
        if only == i then a := { a with hasOwnText := true }
        else b := { b with hasOwnText := true }
      | _ =>
        let closed := x.close states
        let amongBlanks := x.readsBlank closed
        let mut complete : Option (Nat × Int) := none
        for c in x.completions closed do
          if amongBlanks then
            if c.1 == i then a := { a with spansBlanks := true }
            else b := { b with spansBlanks := true }
          match complete with
          | none => complete := some c
          | some p =>
            if p.1 != c.1 then
              let winner := if x.prefers p c then p else c
              complete := some winner
              if winner.1 == i then a := { a with winsText := true }
              else b := { b with winsText := true }
        for m in x.moves closed do
          match complete with
          | none => pure ()
          | some (token, priority) =>
            let owners := x.ownersOf m.next
            if !owners.contains token then
              let other := owners.getLastD 0
              if x.readsOn m token priority amongBlanks then
                if other == i then
                  a := { a with
                    readsOn := true
                    readsFollower := a.readsFollower || m.classes.meets (followers.getD j .empty) }
                else
                  b := { b with
                    readsOn := true
                    readsFollower := b.readsFollower || m.classes.meets (followers.getD i .empty) }
              else if token == i then a := { a with stopsShort := true }
              else b := { b with stopsShort := true }
          if !seen.contains m.next then
            seen := m.next :: seen
            todo := m.next :: todo
  return (a, b)

/-- The overlaps of a lexicon, where `following` holds the tokens that can follow each token. -/
def build (x : Lexicon) (following : Array Bits) : Overlaps := Id.run do
  let count := x.tokens.size
  let first := (Array.range count).map x.firstClasses
  let followers := following.map fun tokens =>
    tokens.toList.foldl (fun acc t => acc.union (first.getD t .empty)) .empty
  let mut entries : Array Overlap := Array.replicate (count * count) {}
  for i in [0:count] do
    for j in [0:i] do
      let (a, b) := compare x followers i j
      entries := entries.set! (i * count + j) a
      entries := entries.set! (j * count + i) b
  return { count, entries }

end Overlaps

end CallAtlas.Grammar
