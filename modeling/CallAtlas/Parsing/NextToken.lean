import CallAtlas.Parsing.Stack

/-!
# The next token

The token that comes next depends on what the parser expects: first the layout is asked, then the
recognizer of the tokens of the state. Where neither finds a token, all tokens of a recovering
parser are tried, and if that fails, too, text is skipped until one is found.
-/

namespace CallAtlas.Grammar.ParseTable

/-- A state of the parser. -/
def state (t : ParseTable) (s : Nat) : TableState := t.states.getD s default

/-- What the parser can do in a state on a token. -/
def actions (t : ParseTable) (s token : Nat) : List Action := (t.state s).actions.getD token []

/-- Whether a rule can be completed in a state before a token. -/
def reduces (t : ParseTable) (s token : Nat) : Bool :=
  match t.actions s token with
  | .reduce _ _ _ _ :: _ => true
  | _ => false

/-- The state after reading a token; zero if there is none. -/
def afterToken (t : ParseTable) (s token : Nat) : Nat :=
  match (t.actions s token).getLast? with
  | some (.shift next _) => next
  | some .shiftExtra => s
  | _ => 0

/-- The state after reading a rule; zero if there is none. -/
def afterRule (t : ParseTable) (s rule : Nat) : Nat := (t.state s).gotos.getD rule 0

end CallAtlas.Grammar.ParseTable

namespace CallAtlas.Parsing

open Grammar Text

/-- A text to be parsed with the table of its language. -/
structure Job where
  table : ParseTable
  text : ByteArray

namespace Job

/-- What the parser can do in a state before a tree. -/
def actionsOn (job : Job) (s : Nat) : Label → List Action
  | .symbol (.token t) => job.table.actions s t
  | _ => []

/-- A bound for the number of steps of a search through the text. -/
def fuel (job : Job) : Nat := 16 * (job.text.size + 256)

/-- A search for a token. -/
structure Search where
  reader : Reader
  /-- The state whose tokens are looked for. -/
  state : Nat
  /-- Whether all tokens of a recovering parser are looked for. -/
  recovering : Bool
  /-- Text skipped so far. -/
  skipped : Option (Position × Position) := none

/-- A token of the layout at the place of a search. A token without text counts only if it changes
the layout, or if the thread has read something since its last error and is not recovering. -/
def layoutToken (job : Job) (v : Nat) (known : Option Layout) (search : Search) :
    ParseM (Option (Nat × Layout × Reader)) := do
  let signals := (job.table.state search.state).signals
  if signals.isEmpty then return none
  let p ← get
  let layout := known.getD { insideFormat := p.insideFormat }
  let (found, reader) := layout.scan signals search.reader.begin
  let reader := reader.finish
  match found with
  | none =>
    set { p with insideFormat := layout.insideFormat }
    return none
  | some (signal, after) =>
    set { p with insideFormat := after.insideFormat }
    let after := after.remembered
    let changed := some after != known
    let empty := reader.stopped.byte ≤ search.reader.position.byte
    if empty && !changed && (search.recovering || !Stack.hasAdvanced p v) then return none
    return some (signal.number, after, reader)

/-- The keyword that has the same text as a word just read, if the parser has a use for it in the
state; the flag tells whether the word begins with any keyword. -/
def keywordAt (job : Job) (s : Nat) (word : Reader) : Option Nat × Bool :=
  let (found, r) := (word.goTo word.start).read job.table.alphabet job.table.keywords 0
  match found with
  | none => (none, false)
  | some token =>
    let whole := r.stopped.byte == word.stopped.byte
    (if whole && !(job.table.actions s token).isEmpty then some token else none, true)

/-- The next token of a thread for a state. -/
def findToken (job : Job) (v s : Nat) : ParseM Lookahead := do
  let p ← get
  let place := (p.top v).position
  let known := (p.thread v).layout
  let origin := Reader.ofText job.text place
  let tree (label : Label) (start stop : Position) (layout : Option Layout) : ParseTree :=
    .token job.table label place start stop layout
  let mut search : Search := { reader := origin, state := s, recovering := s == 0 }
  for _ in [0:job.fuel] do
    let here := search.reader.position
    match ← job.layoutToken v known search with
    | some (number, layout, r) =>
      if search.skipped.isSome then break
      let label := Label.symbol (.token (job.table.lexiconSize + number))
      return { tree := tree label r.start r.stopped (some layout), state := s, keyword := false,
               layoutChanged := some layout != known }
    | none => pure ()
    let (found, r) := (search.reader.goTo here).read job.table.alphabet job.table.tokens
      (job.table.state search.state).reading
    match found with
    | some token =>
      if search.skipped.isSome then break
      let (keyword, isKeyword) := if token == job.table.word then job.keywordAt s r
        else (none, false)
      let label := Label.symbol (.token (keyword.getD token))
      return { tree := tree label r.start r.stopped none, state := s, keyword := isKeyword,
               layoutChanged := false }
    | none =>
      if !search.recovering then
        search := { search with reader := origin, state := 0, recovering := true }
      else
        let (start, stop) := search.skipped.getD (r.start, r.start)
        if r.position.byte == stop.byte && r.atEnd then
          search := { search with reader := r, skipped := some (start, stop) }
          break
        let r := if r.position.byte == stop.byte then r.advance else r
        search := { search with reader := r, skipped := some (start, r.position) }
  let (start, stop) := search.skipped.getD (place, place)
  return { tree := tree .error start stop none, state := s, keyword := false,
           layoutChanged := false }

end Job

end CallAtlas.Parsing
