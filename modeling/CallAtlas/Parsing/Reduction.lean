import CallAtlas.Parsing.NextToken

/-!
# Reductions

A reduction replaces the trees on top of a stack by one tree of a rule. Where the stacks of several
threads meet below, each way down gives a tree, and of those that end at the same node the best is
kept.
-/

namespace CallAtlas.Parsing

open Grammar Text

namespace Job

/-- Splits off the extras at the end. -/
def splitExtras (trees : Array ParseTree) : Array ParseTree × Array ParseTree :=
  let count := (trees.toList.reverse.takeWhile (·.extra)).length
  (trees.extract 0 (trees.size - count), trees.extract (trees.size - count) trees.size)

/-- Slices by the thread they belong to, in order. -/
def bySharedThread (slices : Array Slice) : Array (Nat × List (Array ParseTree)) :=
  (slices.foldl (fun groups s =>
    match groups.back? with
    | some (thread, trees) =>
      if thread == s.thread then groups.pop.push (thread, s.trees :: trees)
      else groups.push (s.thread, [s.trees])
    | none => #[(s.thread, [s.trees])]) #[]).map fun (thread, trees) => (thread, trees.reverse)

/-- The best tree of a rule over one of several sequences of trees, with the extras after it. -/
def bestTree (job : Job) (rule display : Nat) (place : Position) :
    List (Array ParseTree) → ParseTree × Array ParseTree
  | [] => (.node job.table (.symbol (.rule rule)) #[] display place, #[])
  | first :: others =>
    let build (trees : Array ParseTree) (display : Nat) : ParseTree :=
      .node job.table (.symbol (.rule rule)) trees display place
    let (trees, extras) := splitExtras first
    others.foldl (fun (best, after) other =>
      let (trees, extras) := splitExtras other
      if best.supersedes job.table job.text.size (build trees 0) then (build trees display, extras)
      else (best, after)) (build trees display, extras)

/-- Reduces a thread by a rule. Returns the first of the threads that this makes, if any. -/
def reduce (job : Job) (v rule count : Nat) (weight : Int) (display : Nat) :
    ParseM (Option Nat) := do
  let before := (← get).threads.size
  let slices ← Stack.pop v count
  let mut removed := 0
  for (number, sequences) in bySharedThread slices do
    let target := number - removed
    if target > maxThreads + maxThreadOverflow then
      Stack.remove target
      removed := removed + 1
    else
      let top := (← get).top target
      let (tree, extras) := job.bestTree rule display top.position sequences
      let next := job.table.afterRule top.state rule
      Stack.push target (some { tree with weight := tree.weight + weight }) next
      for t in extras do Stack.push target (some t) next
      for other in [0:target] do
        if other ≠ v then
          if ← Stack.merge other target then
            removed := removed + 1
            break
  return if (← get).threads.size > before then some before else none

/-- The whole text has been read: the trees on the stack become one. Of several trees of the text
the best is kept. -/
def accept (job : Job) (v : Nat) (token : Lookahead) : ParseM Unit := do
  Stack.push v (some token.tree) 1
  let slices ← Stack.popAll v
  for slice in slices do
    let trees := slice.trees
    match (List.range trees.size).reverse.find? fun i => !(trees.getD i default).extra with
    | none => pure ()
    | some i =>
      let body := trees.getD i default
      let parts := trees.extract 0 i ++ body.children ++ trees.extract (i + 1) trees.size
      let root := ParseTree.node job.table body.label parts body.display body.start
      modify fun p =>
        let better := match p.finished with
          | some t => t.supersedes job.table job.text.size root
          | none => true
        { p with accepted := p.accepted + 1, finished := if better then some root else p.finished }
  match slices[0]? with
  | some slice => Stack.remove slice.thread
  | none => pure ()
  Stack.halt v

/-- All tokens but the end of the text, the word token first. -/
def allTokens (job : Job) : List Nat :=
  job.table.word :: (List.range job.table.endToken).filter (· != job.table.word)

/-- Does every reduction possible in a thread and in the threads that this makes, before any token or
before the given one. Without a token, and before the end of the text, threads that can only reduce
stay; otherwise they are replaced by their reductions or removed. Tells whether some thread can go on
from there. -/
def reduceAll (job : Job) (v : Nat) (token : Option Label) : ParseM Bool := do
  let first := (← get).threads.size
  let any := token.all (· == .symbol (.token job.table.endToken))
  let tokens := if any then job.allTokens else match token with
    | some (.symbol (.token t)) => [t]
    | _ => []
  let mut goesOn := false
  let mut current := v
  for round in [0:job.fuel] do
    let count := (← get).threads.size
    if current ≥ count then break
    let mut merged := false
    for other in [first:current] do
      if ← Stack.merge other current then
        merged := true
        break
    if !merged then
      let state := ((← get).top current).state
      let mut reads := false
      let mut choices : Array (Nat × Nat × Int × Nat) := #[]
      for t in tokens do
        for action in job.table.actions state t do
          match action with
          | .shift _ repeating => if !repeating then reads := true
          | .recover => reads := true
          | .reduce rule size weight display =>
            if size > 0 && !choices.any fun (r, n, _, _) => r == rule && n == size then
              choices := choices.push (rule, size, weight, display)
          | _ => pure ()
      let mut made : Option Nat := none
      for (rule, size, weight, display) in choices do
        made ← job.reduce current rule size weight display
      let mut stays := false
      if reads then goesOn := true
      else
        match made with
        | some fresh =>
          if round < maxThreads then
            Stack.replace fresh current
            stays := true
          else if !any then Stack.remove current
        | none => if !any then Stack.remove current
      if !stays then current := if current == v then count else current + 1
  return goesOn

end Job

end CallAtlas.Parsing
