import CallAtlas.Parsing.Recovery

/-!
# Parsing a text

All threads take their steps in turn, so that none gets far ahead of the others. After each round
threads that do not differ are joined, and threads that are much worse than others are given up.
-/

namespace CallAtlas.Parsing

open Grammar Text

namespace Job

/-- Reads a token. -/
def shift (v state : Nat) (extra : Bool) (token : Lookahead) : ParseM Unit := do
  let tree := if extra == token.tree.extra then token.tree else { token.tree with extra }
  Stack.push v (some tree) state
  if tree.layout.isSome then Stack.modifyThread v ({ · with layout := tree.layout })

/-- Whether a token found for another state would have been found for this one, too. -/
def servesState (job : Job) (s : Nat) (token : Lookahead) : Bool :=
  let here := job.table.state s
  let there := job.table.state token.state
  let isWord := token.tree.label == .symbol (.token job.table.word)
  !(job.actionsOn s token.tree.label).isEmpty && here.reading == there.reading &&
    here.signals == there.signals && (!isWord || (!token.keyword && token.state == s))

/-- The next token of a thread: the one kept, if it was found at the same place after the same layout,
or one found now. -/
def nextToken (job : Job) (v : Nat) : ParseM Lookahead := do
  let p ← get
  let top := p.top v
  let layout := (p.thread v).layout
  let kept := p.kept.filter fun k =>
    k.byte == top.position.byte && k.layout == layout && job.servesState top.state k.token
  match kept with
  | some k => return k.token
  | none =>
    let token ← job.findToken v top.state
    modify fun p => { p with kept := some { byte := top.position.byte, layout, token } }
    return token

/-- What the actions on a token lead to: all reductions are done, each in a thread of its own, until an
action ends the step. -/
inductive StepResult where
  /-- The step is over. -/
  | over
  /-- Reductions have been done; the number is that of the last thread made, if any. -/
  | reduced (made : Option Nat)

/-- Does the actions on a token. -/
def perform (job : Job) (v : Nat) (token : Lookahead) : Option Nat → List Action →
    ParseM StepResult
  | made, [] => return .reduced made
  | made, action :: rest => do
    match action with
    | .shift _ true => job.perform v token made rest
    | .shift next false =>
      shift v next false token
      return .over
    | .shiftExtra =>
      shift v ((← get).top v).state true token
      return .over
    | .reduce rule count weight display =>
      let fresh ← job.reduce v rule count weight display
      job.perform v token (fresh.or made) rest
    | .accept =>
      job.accept v token
      return .over
    | .recover =>
      job.recover v token
      return .over

/-- A token with the text of a keyword is read as a plain word. -/
def asWord (job : Job) (token : Lookahead) : Lookahead :=
  let label := Label.symbol (.token job.table.word)
  { token with tree := { token.tree with
      label, firstToken := label, visible := ParseTree.isVisible job.table label } }

/-- Takes a thread past one token. `fuel` bounds the reductions before it. -/
def settleToken (job : Job) (v : Nat) : Nat → Lookahead → Label → ParseM Unit
  | 0, _, _ => Stack.halt v
  | fuel + 1, token, label => do
    let state := ((← get).top v).state
    match ← job.perform v token none (job.actionsOn state label) with
    | .over => pure ()
    | .reduced (some made) =>
      Stack.replace made v
      job.settleToken v fuel token token.tree.firstToken
    | .reduced none =>
      let word := Label.symbol (.token job.table.word)
      if token.keyword && token.tree.label != word && !(job.actionsOn state word).isEmpty then
        job.settleToken v fuel (job.asWord token) word
      else if state = 0 then job.recover v token
      else
        Stack.modifyThread v fun t => { t with status := .paused token }
        modify fun p =>
          let count := (p.top v).nodeCount
          { p with threads := p.threads.modify v ({ · with nodesAtError := count }) }

/-- One step of a thread. -/
def advance (job : Job) (v : Nat) : ParseM Unit := do
  let token ← job.nextToken v
  job.settleToken v job.fuel token token.tree.label

/-- Compares the thread `i` with those before it. Threads that do not differ are joined, the better
ones come first, and ones that are much worse are removed. Returns the number up to which threads have
been compared. -/
def rankThread (i : Nat) : ParseM Nat := do
  let mut i := i
  let mut j := 0
  let mine ← standing i
  for _ in [0:2 * i + 2] do
    if j ≥ i then break
    match (← standing j).compare mine with
    | .takeLeft =>
      Stack.remove i
      return i
    | .takeRight =>
      Stack.remove j
      i := i - 1
    | .preferRight =>
      if ← Stack.merge j i then return i
      Stack.swap i j
      j := j + 1
    | _ =>
      if ← Stack.merge j i then return i
      j := j + 1
  return i + 1

/-- Resumes the first paused thread if none before it goes on, and removes the others. -/
def resume (job : Job) : ParseM (Option Nat) := do
  let mut going := false
  let mut cost : Option Nat := none
  let mut i := 0
  for _ in [0:(← get).threads.size] do
    match ((← get).thread i).status with
    | .paused token =>
      let p ← get
      if !going && p.accepted < maxThreads then
        cost := some (p.errorCost i)
        Stack.modifyThread i ({ · with status := .active })
        job.handleError i token
        going := true
        i := i + 1
      else Stack.remove i
    | _ =>
      going := true
      i := i + 1
  return cost

/-- Joins and removes threads after a round. Returns the least cost of a thread; `none` if every
thread is in an error. -/
def condense (job : Job) : ParseM (Option Nat) := do
  let mut least : Option Nat := none
  let mut i := 0
  for _ in [0:64 * ((← get).threads.size + 1)] do
    let p ← get
    if i ≥ p.threads.size then break
    if (p.thread i).status.isHalted then Stack.remove i
    else
      let mine ← standing i
      if !mine.inError then least := some (min mine.cost (least.getD mine.cost))
      i ← rankThread i
  modify fun p => { p with threads := p.threads.extract 0 maxThreads }
  return (← job.resume).or least

/-- Steps a thread until it has gone past the place up to which the others have come. Returns that
place. -/
def advanceBeyond (job : Job) (v : Nat) : Nat → Nat → ParseM Nat
  | 0, reached => return reached
  | fuel + 1, reached => do
    if !((← get).thread v).status.isActive then return reached
    job.advance v
    let byte := ((← get).top v).position.byte
    if byte > reached || (v > 0 && byte == reached) then return byte
    job.advanceBeyond v fuel reached

/-- A step of every thread, those included that the steps make. Returns the place reached. -/
def round (job : Job) (reached : Nat) : ParseM Nat := do
  let mut reached := reached
  for v in [0:job.fuel] do
    if v ≥ (← get).threads.size then break
    reached ← job.advanceBeyond v job.fuel reached
  return reached

/-- Rounds until no thread is left, or none can be better than the best tree. -/
def rounds (job : Job) : Nat → Nat → ParseM Unit
  | 0, _ => pure ()
  | fuel + 1, reached => do
    let reached ← job.round reached
    let idle := (← get).threads.isEmpty
    let least ← job.condense
    let decided := match (← get).finished with
      | some t => match least with
        | some cost => t.cost < cost
        | none => true
      | none => false
    if !decided && !idle then job.rounds fuel reached

/-- The tree of the text. -/
def parse (job : Job) : Option ParseTree :=
  let bottom : StackNode :=
    { state := 1, position := .origin, cost := 0, nodeCount := 0, weight := 0, links := #[] }
  let start : Progress := { nodes := #[bottom], threads := #[{ node := 0 }] }
  ((job.rounds job.fuel 0).run start).2.finished

end Job

end CallAtlas.Parsing
