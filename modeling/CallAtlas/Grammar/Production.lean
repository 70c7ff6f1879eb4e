import CallAtlas.Grammar.Rule
import Std.Data.HashMap

/-!
# Productions

A rule with alternatives, options and repetitions unfolds into productions, plain sequences of
symbols. Each repetition becomes a rule of its own that is one element or two shorter repetitions.
-/

namespace CallAtlas.Grammar

/-- A token or a rule, by number. -/
inductive Symbol where
  | token (index : Nat)
  | rule (index : Nat)
deriving BEq, Hashable, Inhabited

/-- The name under which a symbol shows in place of its own. -/
structure ShownName where
  name : String
  visibility : Visibility
deriving BEq, Inhabited

/-- A symbol of a production with what the grammar says about its use there. -/
structure Step where
  symbol : Symbol
  precedence : Option Int := none
  grouping : Option Grouping := none
  shown : Option ShownName := none
  field : Option String := none
deriving BEq, Inhabited

/-- One way to write a rule. -/
structure Production where
  weight : Int := 0
  steps : List Step := []
deriving BEq, Inhabited

/-- A rule with all ways to write it. -/
structure Nonterminal where
  name : String
  role : RuleRole
  shownAs : Option String
  productions : List Production
deriving Inhabited

namespace Nonterminal

/-- Whether the rule's uses are nodes. -/
def isNode (v : Nonterminal) : Bool := v.role == .node

end Nonterminal

namespace Rule

/-- What surrounds a symbol while a body is unfolded. -/
structure Context where
  precedence : Option Int := none
  grouping : Option Grouping := none
  shown : Option ShownName := none
  field : Option String := none

/-- The body with every repetition replaced by a rule of its own. The rules made so far are kept
with the bodies they repeat, so that equal repetitions share one rule. -/
def nameRepetitions (owner : String) :
    Rule → StateM (Array (Rule × RuleEntry)) Rule
  | .many1 body => do
    let body ← nameRepetitions owner body
    let made ← get
    match made.find? fun m => m.1 == body with
    | some m => return .ref m.2.name
    | none =>
      let name := owner ++ " repetition " ++ toString (made.size + 1)
      let twice := Rule.seq (.ref name) (.ref name)
      let entry : RuleEntry := { name, role := .repetition, body := .either twice body }
      set (made.push (body, entry))
      return .ref name
  | .seq a b => return .seq (← nameRepetitions owner a) (← nameRepetitions owner b)
  | .either a b => return .either (← nameRepetitions owner a) (← nameRepetitions owner b)
  | .ranked p g body => return .ranked p g (← nameRepetitions owner body)
  | .weighted w body => return .weighted w (← nameRepetitions owner body)
  | .field f body => return .field f (← nameRepetitions owner body)
  | .shown n v body => return .shown n v (← nameRepetitions owner body)
  | r => return r

/-- Replaces what the last step says about precedence and grouping by what holds outside. -/
def leave (outside : Context) (ranked : Bool) (grouped : Bool) (steps : List Step) : List Step :=
  match steps.getLast? with
  | none => steps
  | some last =>
    let last := if ranked then { last with precedence := outside.precedence } else last
    let last := if grouped then { last with grouping := outside.grouping } else last
    steps.dropLast ++ [last]

/-- The productions of a body without repetitions, in order. The last symbol of a ranked body takes
the precedence from outside unless the whole production ends there (`final`). -/
def unfold (resolve : Rule → Option Symbol) (around : Context) (final : Bool) :
    Rule → List Production
  | .empty => [{}]
  | .seq a b =>
    (unfold resolve around false a).flatMap fun p =>
      (unfold resolve around final b).map fun q =>
        { weight := if q.weight.natAbs > p.weight.natAbs then q.weight else p.weight,
          steps := p.steps ++ q.steps }
  | .either a b => unfold resolve around final a ++ unfold resolve around final b
  | .ranked p g body =>
    let inside := { around with precedence := some p, grouping := g.or around.grouping }
    (unfold resolve inside final body).map fun q =>
      if final then q else { q with steps := leave around true g.isSome q.steps }
  | .weighted w body =>
    (unfold resolve around final body).map fun q =>
      if w.natAbs > q.weight.natAbs then { q with weight := w } else q
  | .field f body => unfold resolve { around with field := some f } final body
  | .shown n v body => unfold resolve { around with shown := some ⟨n, v⟩ } final body
  | r =>
    match resolve r with
    | none => []
    | some symbol =>
      [{ steps := [{ symbol, precedence := around.precedence, grouping := around.grouping,
                     shown := around.shown, field := around.field }] }]

end Rule

namespace Production

/-- The production with the step at `i` replaced by the steps of `inner`. The steps put in take
over the shown name and field of the step they replace, and the last of them also its precedence
and grouping where it has none. -/
def splice (p : Production) (i : Nat) (replaced : Step) (inner : Production) : Production :=
  let inserted := inner.steps.map fun s =>
    { s with shown := replaced.shown.or s.shown, field := replaced.field.or s.field }
  let inserted := match inserted.getLast? with
    | none => inserted
    | some last =>
      inserted.dropLast ++ [{ last with
        precedence := last.precedence.or replaced.precedence
        grouping := last.grouping.or replaced.grouping }]
  { weight := if inner.weight.natAbs > p.weight.natAbs then inner.weight else p.weight,
    steps := p.steps.take i ++ inserted ++ p.steps.drop (i + 1) }

/-- Writes out the alternatives of inlined rules wherever a step names one. `fuel` bounds the depth
to which inlined rules may name each other, plus the length of the productions. -/
def inlineAll (inlined : Symbol → Option (List Production)) :
    Nat → Nat → Production → List Production
  | 0, _, p => [p]
  | fuel + 1, i, p =>
    match p.steps[i]? with
    | none => [p]
    | some s =>
      match inlined s.symbol with
      | none => inlineAll inlined fuel (i + 1) p
      | some ways => ways.flatMap fun q => inlineAll inlined fuel i (p.splice i s q)

end Production

namespace Description

/-- All rules of the grammar with the rules of its repetitions after them. -/
def withRepetitions (d : Description) : Array RuleEntry :=
  let one (r : RuleEntry) : StateM (Array (Rule × RuleEntry)) RuleEntry := do
    return { r with body := (← Rule.nameRepetitions r.name r.body) }
  let (named, made) := (d.rules.mapM one).run #[]
  named.toArray ++ made.map (·.2)

/-- The symbols that a body's leaves name. A text names a token; a name names a rule, or a token
where no rule has it. Tokens are numbered in the order of the lexicon and then of the layout,
inlined rules after all others. -/
def symbolOf (d : Description) (entries : Array RuleEntry) : Rule → Option Symbol :=
  let names := d.tokens.map (·.name) ++ d.layout.map (·.name)
  let tokens : Std.HashMap String Nat := names.zipIdx.foldl (fun t (n, i) => t.insert n i) {}
  let kept := entries.filter (·.role != .inlined) ++ entries.filter (·.role == .inlined)
  let rules : Std.HashMap String Nat := kept.zipIdx.foldl (fun t (r, i) => t.insert r.name i) {}
  fun
    | .text s => (tokens[s]?).map .token
    | .ref n => ((rules[n]?).map Symbol.rule).or ((tokens[n]?).map .token)
    | _ => none

/-- The rules with their productions, inlined rules written out. -/
def nonterminals (d : Description) : Array Nonterminal :=
  let entries := d.withRepetitions
  let resolve := d.symbolOf entries
  let unfolded := fun (r : RuleEntry) => (r.body.unfold resolve {} true).eraseDups
  let ways : Std.HashMap Symbol (List Production) :=
    (entries.filter (·.role == .inlined)).foldl (fun t r =>
      match resolve (.ref r.name) with
      | some s => t.insert s (unfolded r)
      | none => t) {}
  (entries.filter (·.role != .inlined)).map fun r =>
    { name := r.name, role := r.role, shownAs := r.shownAs,
      productions := ((unfolded r).flatMap (Production.inlineAll (ways[·]?) 64 0)).eraseDups }

end Description

end CallAtlas.Grammar
