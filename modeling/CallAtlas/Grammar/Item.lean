import CallAtlas.Grammar.Bits
import CallAtlas.Grammar.Production

/-!
# Items

An item is a production with a mark of how much of it has been read. Two items are the same where
only the symbols already read differ, unless those symbols matter for the fields of the finished
node. A set of items with the tokens that may follow each of them is a state of the parser.

Tokens are numbered in the order of the lexicon, then the layout, then the end of the text.
-/

namespace CallAtlas.Grammar

/-- A production of a rule, read up to `dot`. -/
structure Item where
  /-- The rule, or `none` for the production that stands for the whole text. -/
  rule : Option Nat
  production : Production
  dot : Nat
  /-- Whether a hidden symbol with fields has been read. -/
  inherits : Bool
  /-- The symbol after the dot. -/
  next : Option Symbol
  /-- The symbol after that. -/
  afterNext : Option Symbol
  /-- The item after reading the next symbol. -/
  advanced : Nat
  /-- The item after reading the next symbol where that is hidden and has fields. -/
  advancedInheriting : Nat
  /-- The number of what the finished node shows: shown names and fields. -/
  display : Nat
deriving Inhabited

namespace Item

/-- The step before the dot. -/
def previous (i : Item) : Option Step :=
  if i.dot = 0 then none else i.production.steps[i.dot - 1]?

/-- The precedence of the reading so far. -/
def precedence (i : Item) : Int := (i.previous.bind (·.precedence)).getD 0

/-- The grouping of the reading so far. -/
def grouping (i : Item) : Option Grouping := i.previous.bind (·.grouping)

end Item

/-- What a finished node shows: the names of its children that are shown under another name, and
the fields of its children, each with whether it comes from inside a hidden child. -/
structure Display where
  names : List (Option ShownName)
  fields : List (String × Nat × Bool)
deriving BEq, Inhabited

/-- Items that a rule contributes wherever it can come next, each with the tokens that can follow
it and whether also what follows the rule can. -/
abbrev Expansion := Array (Nat × Bits × Bool)

/-- All items of a grammar with what is needed to form sets of them. -/
structure Items where
  nonterminals : Array Nonterminal
  /-- How many tokens there are, the end of the text included. -/
  tokenCount : Nat
  items : Array Item
  /-- The tokens that can begin each rule. -/
  first : Array Bits
  /-- The tokens that can end each rule. -/
  last : Array Bits
  expansions : Array Expansion
  displays : Array Display
  /-- Whether each rule is hidden and has fields. -/
  passesFields : Array Bool
  /-- The item that begins the whole text. -/
  start : Nat
deriving Inhabited

namespace Items

/-- For each rule the tokens reachable through the ends of its productions that `pick` selects. -/
def ends (nonterminals : Array Nonterminal) (pick : List Step → Option Step) : Array Bits :=
  (Array.range nonterminals.size).map fun i => Id.run do
    let mut todo := [Symbol.rule i]
    let mut seen : Array Bool := Array.replicate nonterminals.size false
    let mut found : Bits := .empty
    for _ in [0:64 * nonterminals.size] do
      match todo with
      | [] => break
      | .token t :: rest =>
        todo := rest
        found := found.insert t
      | .rule r :: rest =>
        todo := rest
        if !(seen.getD r true) then
          seen := seen.set! r true
          for p in (nonterminals.getD r default).productions do
            match pick p.steps with
            | some s => todo := s.symbol :: todo
            | none => pure ()
    return found

/-- The tokens that can begin a symbol. -/
def firstOf (first : Array Bits) : Symbol → Bits
  | .token t => .single t
  | .rule r => first.getD r .empty

/-- The names of the fields that each rule hands to a parent in which it is hidden. -/
def fieldsOf (nonterminals : Array Nonterminal) : Array (List String) := Id.run do
  let mut fields : Array (List String) := Array.replicate nonterminals.size []
  for _ in [0:8] do
    for (v, i) in nonterminals.zipIdx do
      for p in v.productions do
        for s in p.steps do
          let inherited := match s.symbol with
            | .token _ => []
            | .rule r =>
              let child := nonterminals.getD r default
              let dissolves := s.shown.isNone && child.shownAs.isNone &&
                (child.role == .hidden || child.role == .repetition)
              if dissolves then fields.getD r [] else []
          for f in s.field.toList ++ inherited do
            if !(fields.getD i []).contains f then
              fields := fields.modify i (f :: ·)
  return fields.map (·.mergeSort)

/-- What the finished node of a production shows. -/
def displayOf (nonterminals : Array Nonterminal) (fields : Array (List String)) (p : Production) :
    Display :=
  let names := ((p.steps.map (·.shown)).reverse.dropWhile (·.isNone)).reverse
  let own := p.steps.zipIdx.filterMap fun (s, i) => s.field.map (·, i, false)
  let inherited := p.steps.zipIdx.flatMap fun (s, i) =>
    match s.symbol with
    | .token _ => []
    | .rule r =>
      if (nonterminals.getD r default).isNode then [] else (fields.getD r []).map (·, i, true)
  { names, fields := own ++ inherited }

/-- An order on symbols: the tokens of the layout, then those of the lexicon, then rules. -/
def symbolKey (lexiconSize : Nat) : Symbol → Nat
  | .token t => if t < lexiconSize then 1000 + t else t - lexiconSize
  | .rule r => 2000 + r

/-- The position of a name among the sorted names, counted from one; zero for none. -/
def rankOf (names : Array String) (name : Option String) : Nat :=
  match name with
  | none => 0
  | some n => 1 + (names.findIdx? (· == n)).getD 0

/-- Numbers that identify an item and whose order is the order of items in a set. -/
def itemKey (lexiconSize : Nat) (names : Array String) (rule : Option Nat) (p : Production)
    (dot : Nat) (inherits : Bool) : Array Nat := Id.run do
  let rankPrecedence : Option Int → Nat
    | none => 0
    | some n => (n + 1000).toNat
  let rankGrouping : Option Grouping → Nat
    | none => 0
    | some .left => 1
    | some .right => 2
  let rankShown : Option ShownName → Nat
    | none => 0
    | some s => 2 * rankOf names (some s.name) + (if s.visibility == .named then 1 else 0)
  let previous := if dot = 0 then none else p.steps[dot - 1]?
  let mut key := #[dot, rule.getD 100000, (p.weight + 1000).toNat, p.steps.length,
    rankPrecedence (previous.bind (·.precedence)), rankGrouping (previous.bind (·.grouping)),
    if inherits then 1 else 0]
  for (s, j) in p.steps.zipIdx do
    if j < dot then
      key := key ++ #[rankShown s.shown, rankOf names s.field]
      if inherits then key := key.push (symbolKey lexiconSize s.symbol)
    else
      key := key ++ #[symbolKey lexiconSize s.symbol, rankPrecedence s.precedence,
        rankGrouping s.grouping, rankShown s.shown, rankOf names s.field]
  return key

/-- Lexicographic order of keys. -/
def keyBefore (a b : Array Nat) : Bool :=
  match (a.zip b).find? fun (x, y) => x != y with
  | some (x, y) => x < y
  | none => a.size < b.size

/-- What each rule contributes to a set of items in which it comes next. -/
def expansionsOf (nonterminals : Array Nonterminal) (first : Array Bits)
    (startItem : Nat → Nat → Nat) : Array Expansion :=
  (Array.range nonterminals.size).map fun i => Id.run do
    let mut known : Array (Option (Bits × Bool)) := Array.replicate nonterminals.size none
    let mut order : Array Nat := #[]
    let mut todo : List (Nat × Bits × Bool) := [(i, .empty, true)]
    for _ in [0:1000 * nonterminals.size] do
      match todo with
      | [] => break
      | (v, follow, passes) :: rest =>
        todo := rest
        if (known.getD v none).isNone then order := order.push v
        let (oldFollow, oldPasses) := (known.getD v none).getD (.empty, false)
        let grown :=
          if passes then (oldFollow, true) else (oldFollow.union follow, oldPasses)
        known := known.set! v (some grown)
        let news := if passes then !oldPasses else !(grown.1 == oldFollow)
        if news then
          for p in (nonterminals.getD v default).productions do
            match p.steps with
            | [{ symbol := .rule r, .. }] => todo := (r, follow, passes) :: todo
            | { symbol := .rule r, .. } :: s :: _ =>
              todo := (r, firstOf first s.symbol, false) :: todo
            | _ => pure ()
    let mut found : Expansion := #[]
    for v in order do
      let (follow, passes) := (known.getD v none).getD (.empty, false)
      for k in [0:(nonterminals.getD v default).productions.length] do
        found := found.push (startItem v k, follow, passes)
    return found

/-- The items of a grammar. `tokenCount` counts the end of the text, which is the last token. -/
def build (nonterminals : Array Nonterminal) (lexiconSize tokenCount : Nat) : Items := Id.run do
  let first := ends nonterminals (·.head?)
  let last := ends nonterminals (·.getLast?)
  let fields := fieldsOf nonterminals
  let passesFields := nonterminals.zipIdx.map fun (v, i) =>
    !v.isNode && !(fields.getD i []).isEmpty
  let whole : Production := { steps := [{ symbol := .rule 0 }] }
  let mut productions : Array (Option Nat × Nat × Production) := #[]
  for (v, i) in nonterminals.zipIdx do
    for (p, k) in v.productions.zipIdx do
      productions := productions.push (some i, k, p)
  productions := productions.push (none, 0, whole)
  let mut spoken : List String := []
  for (_, _, p) in productions do
    for s in p.steps do
      spoken := s.field.toList ++ (s.shown.map (·.name)).toList ++ spoken
  let names := spoken.mergeSort.eraseReps.toArray
  let keyOf := itemKey lexiconSize names
  let mut distinct : Std.HashMap (Array Nat) (Option Nat × Production × Nat × Bool) := {}
  for (rule, _, p) in productions do
    for dot in [0:p.steps.length + 1] do
      for inherits in [false, true] do
        if !(inherits && dot == 0) then
          distinct := distinct.insertIfNew (keyOf rule p dot inherits) (rule, p, dot, inherits)
  let sorted := (distinct.toArray).qsort fun a b => keyBefore a.1 b.1
  let mut numbers : Std.HashMap (Array Nat) Nat := {}
  for ((key, _), i) in sorted.zipIdx do
    numbers := numbers.insert key i
  let numberOf (rule : Option Nat) (p : Production) (dot : Nat) (inherits : Bool) : Nat :=
    (numbers[keyOf rule p dot (inherits && dot != 0)]?).getD 0
  let mut displays : Array Display := #[{ names := [], fields := [] }]
  let mut items : Array Item := #[]
  for (_, rule, p, dot, inherits) in sorted do
    let display := displayOf nonterminals fields p
    let mut number := 0
    match displays.findIdx? (· == display) with
    | some n => number := n
    | none =>
      number := displays.size
      displays := displays.push display
    let more := dot < p.steps.length
    items := items.push {
      rule, production := p, dot, inherits
      next := (p.steps[dot]?).map (·.symbol)
      afterNext := (p.steps[dot + 1]?).map (·.symbol)
      advanced := if more then numberOf rule p (dot + 1) inherits else 0
      advancedInheriting := if more then numberOf rule p (dot + 1) true else 0
      display := number }
  let mut starts : Array (Array Nat) := Array.replicate nonterminals.size #[]
  for (rule, _, p) in productions do
    match rule with
    | some r => starts := starts.modify r (·.push (numberOf (some r) p 0 false))
    | none => pure ()
  let startsOf := starts
  let expansions := expansionsOf nonterminals first fun v k => (startsOf.getD v #[]).getD k 0
  return {
    nonterminals, tokenCount, items, first, last, expansions, displays, passesFields
    start := numberOf none whole 0 false }

end Items

end CallAtlas.Grammar
