import CallAtlas.Parsing.Reduction

/-!
# Recovery from errors

A thread that meets a token that does not fit tries, in this order: to put in one missing token; to go
back to an earlier state in which the token fits, what lies between becoming an error; and to skip the
token. Every attempt has a cost, and threads that cost much more than others are given up.
-/

namespace CallAtlas.Parsing

open Grammar Text

/-- The standing of a thread among the others. -/
structure Standing where
  cost : Nat
  /-- How many nodes it has read since its last error. -/
  nodeCount : Nat
  weight : Int
  /-- Whether it is recovering from an error. -/
  inError : Bool

/-- What comparing two threads says about them. -/
inductive Preference where
  /-- The right one is given up. -/
  | takeLeft
  | preferLeft
  | neither
  | preferRight
  /-- The left one is given up. -/
  | takeRight
deriving BEq

namespace Standing

/-- A difference of costs so great that the more costly thread is given up. It counts for more, the
more the cheaper thread has read since its last error; the product is a number of 32 bits. -/
def tooCostly (cheap costly : Standing) : Bool :=
  ((costly.cost - cheap.cost) * (1 + cheap.nodeCount)).toUInt32 > 1600

/-- Compares two threads: those in no error win, then those of less cost, then those of more
weight. -/
def compare (a b : Standing) : Preference :=
  if !a.inError && b.inError then if a.cost < b.cost then .takeLeft else .preferLeft
  else if a.inError && !b.inError then if b.cost < a.cost then .takeRight else .preferRight
  else if a.cost < b.cost then if tooCostly a b then .takeLeft else .preferLeft
  else if b.cost < a.cost then if tooCostly b a then .takeRight else .preferRight
  else if a.weight > b.weight then .preferLeft
  else if b.weight > a.weight then .preferRight
  else .neither

end Standing

namespace Job

/-- The standing of a thread. -/
def standing (v : Nat) : ParseM Standing := do
  let p ← get
  let paused := (p.thread v).status.isPaused
  return {
    cost := p.errorCost v + (if paused then ErrorCost.skippedTree else 0)
    nodeCount := ← Stack.nodesSinceError v
    weight := (p.top v).weight
    inError := paused || (p.top v).state == 0 }

/-- Whether another thread, or a tree of the whole text, is better than the thread would be at the
given cost. -/
def isSurpassed (v cost : Nat) : ParseM Bool := do
  let p ← get
  if let some t := p.finished then
    if t.cost ≤ cost then return true
  let byte := (p.top v).position.byte
  let mine : Standing :=
    { cost, inError := false, weight := (p.top v).weight, nodeCount := ← Stack.nodesSinceError v }
  for other in [0:p.threads.size] do
    let p ← get
    if other ≠ v && (p.thread other).status.isActive && (p.top other).position.byte ≥ byte then
      match mine.compare (← standing other) with
      | .takeRight => return true
      | .preferRight => if (← get).mergeable other v then return true
      | _ => pure ()
  return false

/-- Goes back to the state `goal`, `depth` trees down the stack. The trees popped become an error. -/
def goBack (job : Job) (v depth goal : Nat) : ParseM Bool := do
  let slices ← Stack.pop v depth
  let mut last : Option Nat := none
  for slice in slices do
    let u := slice.thread
    if last ≠ some u then
      if ((← get).top u).state ≠ goal then Stack.halt u
      else
        let parts := match ← Stack.popError u with
          | some e => e.children ++ slice.trees
          | none => slice.trees
        let (trees, extras) := splitExtras parts
        if !trees.isEmpty then
          let wrong := ParseTree.node job.table .error trees 0 .origin
          Stack.push u (some { wrong with extra := true }) goal
        for t in extras do Stack.push u (some t) goal
        last := some u
  return last.isSome

/-- Tries to go back to one of the earlier states in which the token fits. -/
def tryGoingBack (job : Job) (v : Nat) (token : Lookahead) : ParseM Bool := do
  let count := (← get).threads.size
  let place := ((← get).top v).position
  let advanced := (← Stack.nodesSinceError v) > 0
  let cost := (← get).errorCost v
  for m in ((← get).thread v).landmarks.getD #[] do
    if m.state ≠ 0 && m.position.byte ≠ place.byte then
      let p ← get
      let taken := (List.range count).any fun u =>
        (p.top u).state == m.state && (p.top u).position.byte == place.byte
      if !taken then
        let newCost := cost + m.depth * ErrorCost.skippedTree +
          ErrorCost.ofText m.position place
        if ← isSurpassed v newCost then return false
        if !(job.actionsOn m.state token.tree.label).isEmpty then
          let depth := if advanced then m.depth + 1 else m.depth
          if ← job.goBack v depth m.state then return true
  return false

/-- Skips the token, together with what has been skipped just before. -/
def skipToken (job : Job) (v : Nat) (advanced : Bool) (token : Lookahead) : ParseM Unit := do
  let place := ((← get).top v).position
  let isExtra := match (job.actionsOn 1 token.tree.label).getLast? with
    | some .shiftExtra => true
    | _ => false
  let tree := if isExtra then { token.tree with extra := true } else token.tree
  let mut skipped := ParseTree.node job.table .skipped #[tree] 0 place
  if advanced then
    let slices ← Stack.pop v 1
    let slice := slices.getD 0 default
    if slices.size > 1 then
      modify fun p => { p with threads := p.threads.extract 0 (slice.thread + 1) }
    Stack.replace slice.thread v
    skipped := .node job.table .skipped (slice.trees.push skipped) 0 place
  Stack.push v (some skipped) 0
  if tree.layout.isSome then Stack.modifyThread v ({ · with layout := tree.layout })

/-- Recovers a thread from a token that does not fit. -/
def recover (job : Job) (v : Nat) (token : Lookahead) : ParseM Unit := do
  let count := (← get).threads.size
  let advanced := (← Stack.nodesSinceError v) > 0
  let cost := (← get).errorCost v
  let back ← if token.tree.label == .error then pure false else job.tryGoingBack v token
  modify fun p => { p with
    threads := p.threads.extract 0 count ++
      (p.threads.extract count p.threads.size).filter (·.status.isActive) }
  if back && (← get).threads.size > maxThreads then Stack.halt v
  else if back && token.layoutChanged then Stack.halt v
  else if token.tree.isEnd job.table then
    let place := ((← get).top v).position
    Stack.push v (some (.node job.table .error #[] 0 place)) 1
    job.accept v token
  else
    let newCost := cost + ErrorCost.skippedTree +
      ErrorCost.ofText token.tree.before token.tree.stop
    if ← isSurpassed v newCost then Stack.halt v
    else job.skipToken v advanced token

/-- Tries to put in one missing token before a token that does not fit, so that a rule can be
completed before it. -/
def putInMissing (job : Job) (v : Nat) (token : Lookahead) : ParseM Bool := do
  let top := (← get).top v
  let reducesHere (s : Nat) : Bool := match token.tree.firstToken with
    | .symbol (.token t) => job.table.reduces s t
    | _ => false
  for t in job.allTokens do
    let next := job.table.afterToken top.state t
    if next ≠ 0 && next ≠ top.state && reducesHere next then
      let u ← Stack.duplicate v
      Stack.push u (some (.missingToken job.table t top.position)) next
      if ← job.reduceAll u (some token.tree.firstToken) then return true
  return false

/-- A thread has met a token that does not fit: everything that can be completed before it is, then the
threads that come of this are joined in the state of a recovering parser. -/
def handleError (job : Job) (v : Nat) (token : Lookahead) : ParseM Unit := do
  let before := (← get).threads.size
  let _ ← job.reduceAll v none
  let count := (← get).threads.size
  let mut found ← job.putInMissing v token
  Stack.push v none 0
  for u in [before:count] do
    if !found then found ← job.putInMissing u token
    Stack.push u none 0
  for _ in [before:count] do
    let _ ← Stack.merge v before
  let places ← Stack.landmarks v
  Stack.modifyThread v ({ · with landmarks := some places })
  job.recover v token

end Job

end CallAtlas.Parsing
