import CallAtlas.Grammar.Item

/-!
# The states of the parser

A state is a set of items with the tokens that may follow each. In a state, a token that an item
expects next is shifted, and a token that may follow a finished item reduces it. Where both or
several are possible, precedence and grouping choose; what they leave open is kept, and the parser
follows every possibility.
-/

namespace CallAtlas.Grammar

/-- What the parser does on a token. -/
inductive Action where
  /-- Reads the token. A repeating shift continues a repetition that could also be reduced; the
  reduction leads to the same place, so the shift is never followed. -/
  | shift (state : Nat) (repeating : Bool)
  /-- Reads the token without changing the state. -/
  | shiftExtra
  /-- Replaces the last `count` symbols by a rule. -/
  | reduce (rule count : Nat) (weight : Int) (display : Nat)
  /-- The whole text has been read. -/
  | accept
  /-- The token does not fit; the parser is to recover with it. -/
  | recover
deriving BEq, Inhabited

/-- A state of the parser. -/
structure ParserState where
  /-- The number of the set of its items, whatever follows them. -/
  core : Nat
  /-- The tokens on which there is an action. -/
  expects : Bits := .empty
  /-- The actions on each token, reductions first. -/
  actions : Array (List Action)
  /-- The state after each rule; zero where there is none. -/
  gotos : Array Nat
deriving Inhabited

namespace ParserState

/-- The actions on a token. -/
def on (s : ParserState) (token : Nat) : List Action := s.actions.getD token []

/-- The state with other actions on a token. -/
def setActions (s : ParserState) (token : Nat) (acts : List Action) : ParserState :=
  { s with actions := s.actions.set! token acts, expects := s.expects.insert token }

/-- The state with its destinations renamed. -/
def mapStates (s : ParserState) (f : Nat → Nat) : ParserState :=
  { s with
    actions := s.actions.map (·.map fun
      | .shift state repeating => .shift (f state) repeating
      | a => a)
    gotos := s.gotos.map fun g => if g = 0 then 0 else f g }

/-- The states this one leads to. -/
def successors (s : ParserState) : List Nat :=
  let shifts := s.actions.toList.flatMap (·.filterMap fun
    | .shift state _ => some state
    | _ => none)
  shifts ++ s.gotos.toList.filter (· != 0)

end ParserState

/-- What the reductions on one token have in common. -/
structure Reductions where
  precedence : Int := 0
  leftward : Bool := false
  rightward : Bool := false
  ungrouped : Bool := false
deriving Inhabited

namespace Reductions

/-- One more reduction of the same precedence. -/
def note (r : Reductions) (i : Item) : Reductions :=
  let r := { r with precedence := i.precedence }
  match i.grouping with
  | some .left => { r with leftward := true }
  | some .right => { r with rightward := true }
  | none => { r with ungrouped := true }

end Reductions

namespace Items

/-- A set of items with the tokens that may follow each, in ascending order. -/
abbrev Kernel := Array (Nat × Bits)

/-- The kernel with everything its items expect, in ascending order. `room` is an array of empty
sets with one place per item; it is handed back emptied. -/
def complete (x : Items) (kernel : Kernel) (room : Array Bits) : Kernel × Array Bits := Id.run do
  let mut room := room
  let mut touched : Array Nat := #[]
  let mut pending : Array (Nat × Bits) := #[]
  for (i, follow) in kernel do
    room := room.set! i follow
    touched := touched.push i
    let item := x.items.getD i default
    match item.next with
    | some (.rule r) =>
      let after := match item.afterNext with
        | some s => firstOf x.first s
        | none => follow
      match pending.findIdx? (·.1 == r) with
      | some k => pending := pending.modify k fun (r, b) => (r, b.union after)
      | none => pending := pending.push (r, after)
    | _ => pure ()
  for (r, after) in pending do
    for (i, follow, passes) in x.expansions.getD r #[] do
      let more := if passes then follow.union after else follow
      let known := room.getD i .empty
      if known.isEmpty then touched := touched.push i
      room := room.set! i (known.union more)
  let mut completed : Kernel := #[]
  for i in touched.qsort (· < ·) do
    let follow := room.getD i .empty
    if !follow.isEmpty then
      completed := completed.push (i, follow)
      room := room.set! i .empty
  return (completed, room)

/-- Adds an item to the successor sets, kept by the symbol that leads to them. -/
def addTo (sets : Array (Symbol × Kernel)) (s : Symbol) (i : Nat) (follow : Bits) :
    Array (Symbol × Kernel) :=
  match sets.findIdx? (·.1 == s) with
  | none => sets.push (s, #[(i, follow)])
  | some k => sets.modify k fun (s, kernel) =>
    match kernel.findIdx? (·.1 == i) with
    | none => (s, kernel.push (i, follow))
    | some j => (s, kernel.modify j fun (i, b) => (i, b.union follow))

/-- The sets of items after each symbol that the items of a set expect, tokens of the layout
first, then those of the lexicon, then rules. -/
def successorSets (x : Items) (lexiconSize : Nat) (completed : Kernel) :
    Array (Symbol × Kernel) :=
  let sets := completed.foldl (fun sets (i, follow) =>
    let item := x.items.getD i default
    match item.next with
    | none => sets
    | some s =>
      let inheriting := match s with
        | .token _ => false
        | .rule r => x.passesFields.getD r false
      addTo sets s (if inheriting then item.advancedInheriting else item.advanced) follow) #[]
  let ordered := sets.map fun (s, k) => (s, k.qsort fun a b => a.1 < b.1)
  ordered.qsort fun a b => symbolKey lexiconSize a.1 < symbolKey lexiconSize b.1

/-- The action of a finished item. -/
def finishing (i : Item) : Action :=
  match i.rule with
  | none => .accept
  | some r => .reduce r i.dot i.production.weight i.display

/-- The reductions of a set of items: of those on one token only the ones of the highest precedence
are kept. The tokens with several reductions come with them. -/
def reductions (x : Items) (completed : Kernel) (state : ParserState) :
    ParserState × Array Reductions × Bits := Id.run do
  let mut state := state
  let mut infos : Array Reductions := Array.replicate x.tokenCount {}
  let mut several : Bits := .empty
  for (i, follow) in completed do
    let item := x.items.getD i default
    if item.next.isNone then
      let action := finishing item
      for token in follow.toList do
        let known := state.on token
        let info := infos.getD token {}
        if known.isEmpty then
          state := state.setActions token [action]
          infos := infos.set! token (info.note item)
        else if info.precedence < item.precedence then
          state := state.setActions token [action]
          several := several.diff (.single token)
          infos := infos.set! token (Reductions.note {} item)
        else if info.precedence == item.precedence then
          state := state.setActions token (known ++ [action])
          several := several.insert token
          infos := infos.set! token (info.note item)
  return (state, infos, several)

/-- Chooses between the shift and the reductions on a token. The shift comes last in `actions`. -/
def settle (x : Items) (completed : Kernel) (token : Nat) (info : Reductions)
    (actions : List Action) : List Action := Id.run do
  let mut reading : Array Item := #[]
  let mut involved : Array (Option Nat) := #[]
  for (i, follow) in completed do
    let item := x.items.getD i default
    match item.next with
    | some s =>
      if item.dot > 0 && (firstOf x.first s).has token then
        reading := reading.push item
        if item.rule.isSome then involved := involved.push item.rule
    | none =>
      if follow.has token && item.rule.isSome then involved := involved.push item.rule
  match actions.getLast? with
  | some (.shift next _) =>
    let earlier := actions.dropLast
    let repetition := match involved[0]? with
      | some (some r) => (x.nonterminals.getD r default).role == .repetition
      | _ => false
    if repetition && involved.all (· == involved.getD 0 none) then
      return earlier ++ [.shift next true]
    let more := reading.any fun i => i.precedence > info.precedence
    let less := reading.any fun i => i.precedence < info.precedence
    if more && !less then return [.shift next false]
    if less && !more then return earlier
    if !less && !more then
      if info.leftward && !info.ungrouped && !info.rightward then return earlier
      if info.rightward && !info.ungrouped && !info.leftward then return [.shift next false]
    return actions
  | _ => return actions

/-- The states found so far, by their sets of items, with the sets still to be worked on. -/
structure Found where
  byKernel : Std.HashMap (Array (Nat × Bits)) Nat := {}
  byCore : Std.HashMap (Array Nat) Nat := {}
  kernels : Array Kernel := #[]
  states : Array ParserState := #[]

/-- The number of the state with the given set of items, made if it is new. -/
def stateFor (x : Items) (found : Found) (kernel : Kernel) : Nat × Found :=
  match found.byKernel[kernel]? with
  | some n => (n, found)
  | none =>
    let n := found.states.size
    let shape := kernel.map (·.1)
    let core := (found.byCore[shape]?).getD found.byCore.size
    let state : ParserState :=
      { core, actions := Array.replicate x.tokenCount [],
        gotos := Array.replicate x.nonterminals.size 0 }
    (n, { byKernel := found.byKernel.insert kernel n
          byCore := found.byCore.insert shape core
          kernels := found.kernels.push kernel
          states := found.states.push state })

/-- Works out the actions of the state `n`. -/
def explore (x : Items) (lexiconSize : Nat) (extras : List Nat) (found : Found) (n : Nat)
    (room : Array Bits) : Found × Array Bits := Id.run do
  let kernel := found.kernels.getD n #[]
  let (completed, room) := x.complete kernel room
  let mut found := found
  let (reduced, infos, several) := x.reductions completed (found.states.getD n default)
  let mut state := reduced
  let mut contested := several
  for (s, next) in x.successorSets lexiconSize completed do
    let (target, grown) := x.stateFor found next
    found := grown
    match s with
    | .token t =>
      let known := state.on t
      if !known.isEmpty then contested := contested.insert t
      state := state.setActions t (known ++ [.shift target false])
    | .rule r => state := { state with gotos := state.gotos.set! r target }
  for t in contested.toList do
    state := state.setActions t (x.settle completed t (infos.getD t {}) (state.on t))
  for t in extras do
    if !state.expects.has t then state := state.setActions t [.shiftExtra]
  return ({ found with states := found.states.set! n state }, room)

/-- All states, each worked out in the order in which it was found. State 0 is the one of a parser
that is recovering, state 1 the one that begins a text. `limit` bounds their number. -/
def states (x : Items) (lexiconSize : Nat) (extras : List Nat) (limit : Nat) :
    Array ParserState := Id.run do
  let end_ := x.tokenCount - 1
  let mut found : Found := {}
  found := (x.stateFor found #[]).2
  found := (x.stateFor found #[(x.start, .single end_)]).2
  let mut room : Array Bits := Array.replicate x.items.size .empty
  for n in [0:limit] do
    if n < found.states.size then
      let (grown, back) := x.explore lexiconSize extras found n room
      found := grown
      room := back
    else break
  return found.states

end Items

end CallAtlas.Grammar
