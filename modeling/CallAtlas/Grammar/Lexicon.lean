import CallAtlas.Grammar.Alphabet

/-!
# The automaton of a lexicon

All tokens of a lexicon share one nondeterministic automaton. A token that is not immediate is
entered through the blanks that may stand before it; the steps over blanks are marked, since they
do not belong to the token's text.
-/

namespace CallAtlas.Grammar

/-- A state of the automaton. -/
inductive NfaState where
  /-- Reads one character of the classes. -/
  | step (classes : Bits) (next : Nat) (blank : Bool) (priority : Int)
  /-- Goes on as either state without reading. -/
  | split (left right : Nat)
  /-- A token has been read. -/
  | done (token : Nat) (priority : Int)
deriving Inhabited

/-- A step that a set of states can take on each of some classes. -/
structure Move where
  classes : Bits
  /-- The states after the step, ascending. -/
  next : List Nat
  /-- Whether the character is a blank in every reading. -/
  blank : Bool
  /-- The highest priority of the tokens that take the step. -/
  priority : Int
deriving BEq, Inhabited

/-- The tokens of a language together with their automaton. -/
structure Lexicon where
  tokens : Array Token
  alphabet : Alphabet
  states : Array NfaState
  /-- The token each state belongs to. -/
  owner : Array Nat
  /-- The state at which each token begins. -/
  entry : Array Nat
  /-- For each state the reading and accepting states it stands for, ascending. -/
  closure : Array (List Nat)
deriving Inhabited

namespace Lexicon

/-- The sets of characters in a pattern. -/
def setsOf : Pattern → List CharSet
  | .empty => []
  | .chars s => [s.normalize]
  | .seq a b => setsOf a ++ setsOf b
  | .either a b => setsOf a ++ setsOf b
  | .many1 p => setsOf p

/-- Adds the states of a pattern whose end is the state `next`; returns the state it begins at. -/
def compile (alphabet : Alphabet) (blank : Bool) (priority : Int) :
    Pattern → Nat → Array NfaState → Nat × Array NfaState
  | .empty, next, states => (next, states)
  | .chars s, next, states =>
    (states.size, states.push (.step (alphabet.classesOf s.normalize) next blank priority))
  | .seq a b, next, states =>
    let (middle, states) := compile alphabet blank priority b next states
    compile alphabet blank priority a middle states
  | .either a b, next, states =>
    let (left, states) := compile alphabet blank priority a next states
    let (right, states) := compile alphabet blank priority b next states
    (states.size, states.push (.split left right))
  | .many1 p, next, states =>
    let again := states.size
    let (start, states) := compile alphabet blank priority p again (states.push (.split next next))
    (start, states.set! again (.split start next))

/-- The reading and accepting states reachable from `start` without reading. -/
def reach (states : Array NfaState) (start : Nat) : List Nat := Id.run do
  let mut todo := [start]
  let mut seen : Array Bool := Array.replicate states.size false
  let mut found : Array Nat := #[]
  for _ in [0:2 * states.size + 1] do
    match todo with
    | [] => break
    | s :: rest =>
      todo := rest
      if !(seen.getD s true) then
        seen := seen.set! s true
        match states.getD s (.done 0 0) with
        | .split a b => todo := a :: b :: todo
        | _ => found := found.push s
  return (found.qsort (· < ·)).toList

/-- The union of two ascending lists without repetition. -/
def mergeAscending (xs ys : List Nat) : List Nat :=
  (xs.merge ys).foldr (fun x acc => if acc.head? == some x then acc else x :: acc) []

/-- The automaton of the tokens, where `blanks` may precede every token that is not immediate. -/
def build (tokens : Array Token) (blanks : Pattern) : Lexicon := Id.run do
  let mut sets : Array CharSet := #[]
  for t in tokens do
    for s in setsOf t.pattern do
      if !sets.contains s then sets := sets.push s
  for s in setsOf blanks do
    if !sets.contains s then sets := sets.push s
  let alphabet := Alphabet.ofSets sets
  let mut states : Array NfaState := #[]
  let mut owner : Array Nat := #[]
  let mut entry : Array Nat := #[]
  for (t, i) in tokens.zipIdx do
    let accept := states.size
    states := states.push (.done i t.priority)
    let (start, grown) := compile alphabet false t.priority t.pattern accept states
    states := grown
    if t.immediate then
      entry := entry.push start
    else
      let (start, grown) := compile alphabet true 0 (.many blanks) start states
      states := grown
      entry := entry.push start
    owner := owner ++ Array.replicate (states.size - owner.size) i
  let closure := (Array.range states.size).map (reach states)
  return { tokens, alphabet, states, owner, entry, closure }

/-- The reading and accepting states a set of states stands for, ascending. -/
def close (x : Lexicon) (states : List Nat) : List Nat :=
  states.foldl (fun acc s => mergeAscending acc (x.closure.getD s [])) []

/-- Merges one reading state into the moves found so far, dividing classes where they overlap. -/
def addStep (moves : List Move) (classes : Bits) (next : Nat) (blank : Bool) (priority : Int) :
    List Move :=
  let (moves, left) := moves.foldl (fun (done, left) (m : Move) =>
    let shared := m.classes.inter left
    if shared.isEmpty then (m :: done, left) else
      let both : Move :=
        { classes := shared, next := mergeAscending m.next [next], blank := m.blank && blank,
          priority := max m.priority priority }
      let only := m.classes.diff shared
      (if only.isEmpty then both :: done else both :: { m with classes := only } :: done,
        left.diff shared)) ([], classes)
  if left.isEmpty then moves else { classes := left, next := [next], blank, priority } :: moves

/-- Joins moves that differ in their classes only. -/
def joinMoves (moves : List Move) : List Move :=
  moves.foldl (fun done m =>
    match done.find? fun d => { d with classes := m.classes } == m with
    | some d =>
      done.map fun e => if e == d then { d with classes := d.classes.union m.classes } else e
    | none => m :: done) []

/-- The moves of a closed set of states, with disjoint classes. -/
def moves (x : Lexicon) (closed : List Nat) : List Move :=
  joinMoves (closed.foldl (fun acc s =>
    match x.states.getD s default with
    | .step classes next blank priority => addStep acc classes next blank priority
    | _ => acc) [])

/-- The tokens complete in a closed set of states, with their priorities. -/
def completions (x : Lexicon) (closed : List Nat) : List (Nat × Int) :=
  closed.filterMap fun s =>
    match x.states.getD s default with
    | .done token priority => some (token, priority)
    | _ => none

/-- Whether a closed set of states can read a blank. -/
def readsBlank (x : Lexicon) (closed : List Nat) : Bool :=
  closed.any fun s =>
    match x.states.getD s default with
    | .step _ _ blank _ => blank
    | _ => false

/-- The tokens that a set of states belongs to, in ascending order. -/
def ownersOf (x : Lexicon) (states : List Nat) : List Nat :=
  (states.map fun s => x.owner.getD s 0).eraseReps

/-- Whether the first of two tokens wins where both match the same text. -/
def prefers (x : Lexicon) (a : Nat × Int) (b : Nat × Int) : Bool :=
  if a.2 != b.2 then a.2 > b.2 else
    let rank i := (x.tokens.getD i default).rank
    if rank a.1 != rank b.1 then rank a.1 > rank b.1 else a.1 < b.1

/-- Whether reading on wins over stopping at the complete token `token`. A token of lower priority
never does; one of equal priority does unless it would begin with blanks, or the states could also
read blanks and the token that is complete is not among those read on. -/
def readsOn (x : Lexicon) (m : Move) (token : Nat) (priority : Int) (amongBlanks : Bool) : Bool :=
  if m.priority < priority then false
  else if m.priority == priority then
    !m.blank && !(amongBlanks && !(x.ownersOf m.next).contains token)
  else true

/-- The classes of the characters that can begin each token, blanks before it included. -/
def firstClasses (x : Lexicon) (token : Nat) : Bits :=
  (x.close [x.entry.getD token 0]).foldl (fun acc s =>
    match x.states.getD s default with
    | .step classes _ _ _ => acc.union classes
    | _ => acc) .empty

end Lexicon

end CallAtlas.Grammar
