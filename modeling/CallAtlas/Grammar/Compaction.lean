import CallAtlas.Grammar.Automaton
import CallAtlas.Grammar.Overlap

/-!
# Fewer states

Many states differ only in the tokens that may follow their items. Two of them are merged unless
they act differently on a token, or a token that only one of them expects could be mistaken for a
token of the other. States that could only replace one hidden rule by another are bypassed. The
state of a recovering parser comes first, the initial state second, and the others by falling number
of the symbols they know.
-/

namespace CallAtlas.Grammar

/-- What the choice of states to merge depends on besides the states. -/
structure Surroundings where
  lexiconSize : Nat
  nonterminals : Array Nonterminal
  overlaps : Overlaps
  /-- The token of which keywords are special cases. -/
  word : Nat
  keywords : Bits
  /-- Tokens of the lexicon that the layout watches. -/
  watched : Bits
  /-- For each token the tokens that some state expects beside it. -/
  beside : Array Bits

namespace Surroundings

/-- The tokens of the lexicon. -/
def ofLexicon (s : Surroundings) (tokens : Bits) : List Nat :=
  tokens.toList.filter (· < s.lexiconSize)

/-- Whether no state expects both tokens. -/
def apart (s : Surroundings) (a b : Nat) : Bool := !(s.beside.getD a .empty).has b

end Surroundings

/-- For each token the tokens that can follow it. A token that may stand anywhere follows all and
is followed by all. -/
def followingTokens (x : Items) (lexiconSize : Nat) (extras : List Nat) : Array Bits := Id.run do
  let lexicon := Bits.ofList (List.range lexiconSize)
  let lastOf : Symbol → Bits
    | .token t => .single t
    | .rule r => x.last.getD r .empty
  let mut following : Array Bits := Array.replicate lexiconSize .empty
  for v in x.nonterminals do
    for p in v.productions do
      for (a, b) in p.steps.zip p.steps.tail do
        let next := (Items.firstOf x.first b.symbol).inter lexicon
        for t in (lastOf a.symbol).toList do
          if t < lexiconSize then following := following.modify t (·.union next)
  for e in extras do
    following := following.map (·.insert e)
    following := following.set! e lexicon
  return following

/-- For each token the tokens that some state expects beside it. -/
def tokensBeside (states : Array ParserState) (tokenCount : Nat) : Array Bits :=
  states.foldl (fun rows s =>
    s.expects.toList.foldl (fun rows t => rows.modify t (·.union s.expects)) rows)
    (Array.replicate tokenCount .empty)

/-- The keywords: tokens made of letters that match only texts of the word token, no two of them
the same text, and that meet the other tokens as the word token does wherever the word token is not
expected anyway. -/
def keywordsOf (x : Lexicon) (o : Overlaps) (word : Nat) (states : Array ParserState) : Bits :=
  let letter (c : Char) : Bool := c.isAlpha || c == '_'
  let candidates := (List.range x.tokens.size).filter fun t =>
    let token := x.tokens.getD t default
    token.fixed && (token.name.toList.head?.any letter || token.visibility == .named) &&
      (o.of t word).winsText && !(o.of t word).hasOwnText
  let distinct := candidates.filter fun t =>
    candidates.all fun u => u == t || !(o.of u t).winsText
  let wordless := states.filter fun s => !s.expects.has word
  .ofList (distinct.filter fun t =>
    let exposed := wordless.foldl (fun acc s =>
      if s.expects.has t then acc.union s.expects else acc) Bits.empty
    (List.range x.tokens.size).all fun u =>
      candidates.contains u || !exposed.has u || o.of t u == o.of word u)

/-- The actions of a recovering parser: it takes every token of the layout, the end of the text, and
each token of the lexicon that cannot be mistaken for one that stands apart from all others. -/
def recovering (s : Surroundings) (tokenCount : Nat) (state : ParserState) : ParserState := Id.run do
  let tokens := List.range s.lexiconSize
  let plain := tokens.filter fun i =>
    tokens.all fun j => j == i || !s.apart i j || !s.overlaps.endsElsewhere i j
  let mut state := state
  for t in tokens do
    let taken := plain.contains t || s.keywords.has t || t == s.word ||
      !plain.any fun u => s.apart t u && s.overlaps.conflicts t u
    if taken && !state.expects.has t then state := state.setActions t [.recover]
  for t in [s.lexiconSize:tokenCount] do
    state := state.setActions t [.recover]
  return state

namespace Compaction

/-- Groups of states: the group of each state and the states of each group. -/
structure Groups where
  of : Array Nat
  members : Array (List Nat)

/-- Splits every group into one whose first members are pairwise together and the rest. -/
def split (apart : Array Nat → Nat → Nat → Bool) (g : Groups) : Groups × Bool := Id.run do
  let mut g := g
  let mut changed := false
  let mut k := 0
  for _ in [0:g.of.size + 1] do
    if k < g.members.size then
      let ids := g.members.getD k []
      let mut out : Array Bool := #[]
      let arr := ids.toArray
      out := Array.replicate arr.size false
      let mut moved : Array Nat := #[]
      for i in [0:arr.size] do
        if !(out.getD i true) then
          for j in [i + 1:arr.size] do
            if !(out.getD j true) && apart g.of (arr.getD i 0) (arr.getD j 0) then
              out := out.set! j true
              moved := moved.push (arr.getD j 0)
      if !moved.isEmpty then
        changed := true
        let flags := out
        let stay := (arr.zip flags).toList.filterMap fun (s, o) => if o then none else some s
        let fresh := g.members.size
        g := { of := moved.foldl (fun of s => of.set! s fresh) g.of
               members := (g.members.set! k stay).push moved.toList }
      k := k + 1
    else break
  return (g, changed)

/-- Splits until nothing is left to split. -/
def splitAll (apart : Array Nat → Nat → Nat → Bool) : Nat → Groups → Groups
  | 0, g => g
  | fuel + 1, g =>
    let (g, changed) := split apart g
    if changed then splitAll apart fuel g else g

/-- Whether two lists of actions differ once states of one group count as one. -/
def actionsDiffer (group : Array Nat) (a b : List Action) : Bool :=
  a.length != b.length || (a.zip b).any fun
    | (.shift s r, .shift t q) => group.getD s 0 != group.getD t 0 || r != q
    | (p, q) => p != q

/-- Whether a token must not be added to a state that expects `existing`. The end of the text is
judged like the first token. -/
def intrudes (s : Surroundings) (tokenCount : Nat) (existing : Bits) (token : Nat) : Bool :=
  if token + 1 == tokenCount then
    (s.ofLexicon existing).any fun t => s.overlaps.conflicts 0 t
  else if token ≥ s.lexiconSize || s.watched.has token then true
  else (s.ofLexicon existing).any fun t =>
    !(t == s.word && s.keywords.has token) && !(token == s.word && s.keywords.has t) &&
      s.overlaps.conflicts token t

/-- Whether two states cannot be one. -/
def conflict (s : Surroundings) (tokenCount : Nat) (states : Array ParserState)
    (group : Array Nat) (a b : Nat) : Bool :=
  let l := states.getD a default
  let r := states.getD b default
  (l.expects.inter r.expects).toList.any (fun t => actionsDiffer group (l.on t) (r.on t)) ||
  (l.expects.diff r.expects).toList.any (intrudes s tokenCount r.expects) ||
  (r.expects.diff l.expects).toList.any (intrudes s tokenCount l.expects)

/-- Whether two states lead to states of different groups. -/
def leadApart (states : Array ParserState) (group : Array Nat) (a b : Nat) : Bool :=
  let l := states.getD a default
  let r := states.getD b default
  let differ (s t : Nat) : Bool := group.getD s 0 != group.getD t 0
  ((l.expects.inter r.expects).toList.any fun t =>
    match (l.on t).getLast?, (r.on t).getLast? with
    | some (.shift s _), some (.shift u _) => differ s u
    | _, _ => false) ||
  (l.gotos.zip r.gotos).any fun (s, t) => s != 0 && t != 0 && differ s t

/-- One state for a group of states. -/
def join (states : Array ParserState) (members : List Nat) : ParserState :=
  match members with
  | [] => default
  | first :: rest =>
    rest.foldl (fun acc m =>
      let s := states.getD m default
      { acc with
        expects := acc.expects.union s.expects
        actions := acc.actions.zipWith (fun a b => if b.isEmpty then a else b) s.actions
        gotos := acc.gotos.zipWith (fun a b => if b = 0 then a else b) s.gotos })
      (states.getD first default)

/-- The states with those of one group merged, states 0 and 1 kept in front. -/
def merge (s : Surroundings) (tokenCount : Nat) (states : Array ParserState) :
    Array ParserState := Id.run do
  let coreCount := states.foldl (fun n s => max n (s.core + 1)) 0
  let members := states.zipIdx.foldl (fun (acc : Array (List Nat)) (s, i) =>
    acc.modify s.core (i :: ·)) (Array.replicate coreCount [])
  let start : Groups := { of := states.map (·.core), members := members.map (·.reverse) }
  let (coarse, _) := split (conflict s tokenCount states) start
  let fine := splitAll (leadApart states) states.size coarse
  let mut groups := fine.members
  for front in [0, 1] do
    let at_ := fine.of.getD front 0
    let here := (groups.findIdx? (·.contains front)).getD at_
    groups := (groups.set! here (groups.getD front [])).set! front (groups.getD here [])
  let mut number : Array Nat := Array.replicate states.size 0
  for (ids, k) in groups.zipIdx do
    for i in ids do number := number.set! i k
  let numbers := number
  return groups.map fun ids => (join states ids).mapStates (numbers.getD · 0)

/-- The rule that a state can only replace by its parent, if there is nothing else it can do and
the replacement leaves no trace in the tree. -/
def bypassed (nonterminals : Array Nonterminal) (renamed : List Symbol) (s : ParserState) :
    Option Nat := Id.run do
  let mut found : Option Nat := none
  for acts in s.actions do
    for a in acts do
      match a with
      | .shiftExtra => pure ()
      | .reduce rule 1 0 0 =>
        let v := nonterminals.getD rule default
        let traceless := v.shownAs.isNone && (v.role == .hidden || v.role == .repetition) &&
          !renamed.contains (.rule rule)
        if !traceless || (found.isSome && found != some rule) then return none
        found := some rule
      | _ => return none
  return found

/-- Leads past every bypassed state to where its reduction would lead. -/
def bypass (nonterminals : Array Nonterminal) (states : Array ParserState) : Array ParserState :=
  let renamed := nonterminals.toList.flatMap fun v => v.productions.flatMap fun p =>
    p.steps.filterMap fun s => if s.shown.isSome then some s.symbol else none
  let skips := states.map (bypassed nonterminals renamed)
  let around (s : ParserState) (target : Nat) : Nat :=
    match skips.getD target none with
    | some rule => s.gotos.getD rule 0
    | none => target
  let once (s : ParserState) : ParserState := s.mapStates (around s)
  states.map fun s => once (once (once (once s)))

/-- The states that some state leads to, and the first two. -/
def prune (states : Array ParserState) : Array ParserState :=
  let used := states.foldl (fun (used : Array Bool) s =>
    s.successors.foldl (fun used t => used.set! t true) used)
    ((Array.replicate states.size false).set! 0 true |>.set! 1 true)
  let kept := (Array.range states.size).filter (used.getD · false)
  let number := kept.zipIdx.foldl (fun (n : Array Nat) (s, i) => n.set! s i)
    (Array.replicate states.size 0)
  kept.map fun i => (states.getD i default).mapStates (number.getD · 0)

/-- How many symbols a state knows. -/
def breadth (s : ParserState) : Nat :=
  s.expects.toList.length + (s.gotos.filter (· != 0)).size

/-- The states after the first two by falling number of known symbols. -/
def arrange (states : Array ParserState) : Array ParserState :=
  let rest := (List.range states.size).drop 2
  let order := 0 :: 1 :: ((rest.map fun i => (breadth (states.getD i default), i)).mergeSort
    fun a b => a.1 ≥ b.1).map (·.2)
  let number := order.zipIdx.foldl (fun (n : Array Nat) (s, i) => n.set! s i)
    (Array.replicate states.size 0)
  (order.map fun i => (states.getD i default).mapStates (number.getD · 0)).toArray

end Compaction

end CallAtlas.Grammar
