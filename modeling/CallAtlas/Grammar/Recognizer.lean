import CallAtlas.Grammar.Compaction

/-!
# Recognizers

A recognizer is the deterministic automaton of some sets of tokens: from the start state of a set it
finds the text of whichever token of the set comes next. Parser states whose tokens do not get in
each other's way share one set, so that a grammar needs only a few of them.
-/

namespace CallAtlas.Grammar

/-- A state of a recognizer. -/
structure ReadingState where
  /-- The token complete here. -/
  accepts : Option Nat
  /-- The state after the end of the text, where the end may stand here. -/
  atEnd : Option Nat
  /-- The state after a character of each class, with whether the character is part of the token and
  not a blank before it. -/
  moves : Array (Option (Nat × Bool))
deriving Inhabited

/-- The deterministic automaton of some sets of tokens. -/
structure Recognizer where
  states : Array ReadingState
deriving Inhabited

namespace Recognizer

/-- The states found so far by the sets they stand for, with the sets themselves. The flag says
whether the end of the text may come next. -/
structure Known where
  numbers : Std.HashMap (List Nat × Bool) Nat := {}
  sets : Array (List Nat × Bool) := #[]

/-- The number of a closed set, given anew if the set is new. -/
def Known.number (k : Known) (set : List Nat × Bool) : Nat × Known :=
  match k.numbers[set]? with
  | some n => (n, k)
  | none =>
    (k.sets.size,
      { numbers := k.numbers.insert set k.sets.size, sets := k.sets.push set })

/-- The token that wins among those complete in a closed set. -/
def winner (x : Lexicon) (closed : List Nat) : Option (Nat × Int) :=
  (x.completions closed).foldl (fun best c =>
    match best with
    | some b => if x.prefers b c then best else some c
    | none => some c) none

/-- The state of a closed set. A move that loses against the token complete in the set is left out.
The set without members is the state after the end of the text. -/
def readingState (x : Lexicon) (endToken : Nat) (known : Known) (set : List Nat × Bool) :
    ReadingState × Known := Id.run do
  let (closed, ending) := set
  let complete := winner x closed
  let amongBlanks := x.readsBlank closed
  let mut known := known
  let mut moves : Array (Option (Nat × Bool)) := Array.replicate x.alphabet.count none
  let mut atEnd : Option Nat := none
  if ending then
    let (n, grown) := known.number ([], false)
    known := grown
    atEnd := some n
  for m in x.moves closed do
    let taken := match complete with
      | some (token, priority) => x.readsOn m token priority amongBlanks
      | none => true
    if taken then
      let (n, grown) := known.number (x.close m.next, ending && m.blank)
      known := grown
      for c in m.classes.toList do
        moves := moves.set! c (some (n, !m.blank))
  let accepts := if closed.isEmpty then some endToken else complete.map (·.1)
  return ({ accepts, atEnd, moves }, known)

/-- The recognizer of some sets of tokens and the state at which each set starts. A set that has the
end of the text among its tokens finds it, too. -/
def build (x : Lexicon) (endToken : Nat) (sets : Array Bits) : Recognizer × Array Nat := Id.run do
  let mut known : Known := {}
  let mut starts : Array Nat := #[]
  for set in sets do
    let entries := (set.toList.filter (· < x.tokens.size)).map (x.entry.getD · 0)
    let (n, grown) := known.number (x.close entries, set.has endToken)
    known := grown
    starts := starts.push n
  let mut states : Array ReadingState := #[]
  for _ in [0:64 * x.states.size] do
    match known.sets[states.size]? with
    | none => break
    | some set =>
      let (state, grown) := readingState x endToken known set
      known := grown
      states := states.push state
  return ({ states }, starts)

end Recognizer

namespace Surroundings

/-- For each token those that must not be looked for together with it by a state that does not
expect it. -/
def unwelcome (s : Surroundings) : Array Bits :=
  (Array.range s.lexiconSize).map fun i =>
    .ofList ((List.range s.lexiconSize).filter fun j =>
      s.overlaps.conflicts i j || (s.overlaps.of i j).stopsShort ||
        (s.apart i j && (s.overlaps.touches i j || s.overlaps.touches j i)))

/-- The tokens a state looks for. Keywords are looked for as the word token. -/
def soughtBy (s : Surroundings) (endToken : Nat) (state : ParserState) : Bits :=
  let inLexicon := Bits.ofList (s.ofLexicon state.expects)
  let sought := if inLexicon.meets s.keywords then (inLexicon.diff s.keywords).insert s.word
    else inLexicon
  if state.expects.has endToken then sought.insert endToken else sought

/-- Whether two sets of tokens may be looked for together: no token of only one of them is unwelcome
beside those of the other. -/
def joinable (s : Surroundings) (unwelcome : Array Bits) (a b : Bits) : Bool :=
  let fits (extra others : Bits) : Bool :=
    (s.ofLexicon extra).all fun t => !(unwelcome.getD t .empty).meets
      (Bits.ofList (s.ofLexicon others))
  fits (a.diff b) b && fits (b.diff a) a

/-- The sets of tokens that are looked for together, and the number of the set that each state
uses. Every state joins the first set that will have it. -/
def lookups (s : Surroundings) (endToken : Nat) (states : Array ParserState) :
    Array Bits × Array Nat := Id.run do
  let unwelcome := s.unwelcome
  let mut sets : Array Bits := #[]
  let mut used : Array Nat := #[]
  for state in states do
    let sought := s.soughtBy endToken state
    match sets.findIdx? (s.joinable unwelcome sought) with
    | some n =>
      sets := sets.modify n (·.union sought)
      used := used.push n
    | none =>
      used := used.push sets.size
      sets := sets.push sought
  return (sets, used)

end Surroundings

end CallAtlas.Grammar
