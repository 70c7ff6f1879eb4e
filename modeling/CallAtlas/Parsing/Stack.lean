import CallAtlas.Parsing.Tree

/-!
# The stack of the parser

Where a text can be read in several ways the parser follows all of them at once. Each way is a
`Thread` with a stack of its own; the stacks share their lower parts and are joined again where two
threads come to the same state at the same place. So the stacks together are a graph: each node
has a link for every way to reach it.
-/

namespace CallAtlas.Parsing

open Grammar Text

/-- The most threads kept at a time. -/
def maxThreads : Nat := 6

/-- How many threads more than that may exist while they are compared. -/
def maxThreadOverflow : Nat := 4

/-- The most links of a node. -/
def maxLinks : Nat := 8

/-- The most paths followed at a time down the stacks. -/
def maxPaths : Nat := 64

/-- A way from a node of the stacks to the one below it. -/
structure Link where
  node : Nat
  /-- What has been read between the two; none where an error was found. -/
  tree : Option ParseTree
deriving Inhabited

/-- A node of the stacks. -/
structure StackNode where
  state : Nat
  position : Position
  /-- The cost of the errors below. -/
  cost : Nat
  /-- How many nodes have been read below. -/
  nodeCount : Nat
  weight : Int
  links : Array Link
deriving Inhabited

/-- The token that comes next. -/
structure Lookahead where
  tree : ParseTree
  /-- The state for which it was found. -/
  state : Nat
  /-- Whether it has the text of a keyword. -/
  keyword : Bool
  /-- Whether it has changed the layout. -/
  layoutChanged : Bool
deriving Inhabited

/-- Whether a thread goes on. -/
inductive Status where
  | active
  /-- It has met a token that does not fit. -/
  | paused (token : Lookahead)
  | halted
deriving Inhabited

/-- A place in the stack of a thread to which a recovering parser can go back. -/
structure Landmark where
  position : Position
  depth : Nat
  state : Nat
deriving Inhabited

/-- One way to read the text. -/
structure Thread where
  /-- The top of its stack. -/
  node : Nat
  /-- How many nodes had been read when it last met an error. -/
  nodesAtError : Nat := 0
  /-- The layout after the last token of the layout. -/
  layout : Option Layout := none
  status : Status := .active
  landmarks : Option (Array Landmark) := none
deriving Inhabited

/-- Trees popped from a stack, with the thread that goes on below them. -/
structure Slice where
  trees : Array ParseTree
  thread : Nat
deriving Inhabited

/-- A token kept for threads that come to the same place. -/
structure KeptToken where
  byte : Nat
  layout : Option Layout
  token : Lookahead
deriving Inhabited

/-- The state of the whole parser. -/
structure Progress where
  nodes : Array StackNode
  threads : Array Thread
  kept : Option KeptToken := none
  /-- The best tree of the whole text so far. -/
  finished : Option ParseTree := none
  /-- How often the whole text has been read. -/
  accepted : Nat := 0
  /-- Whether the layout last met a format string; it holds where no layout is remembered yet. -/
  insideFormat : Bool := false
deriving Inhabited

/-- A step of the parser. -/
abbrev ParseM := StateM Progress

namespace Status

/-- Whether the thread goes on. -/
def isActive : Status → Bool
  | active => true
  | _ => false

/-- Whether the thread waits with a token that does not fit. -/
def isPaused : Status → Bool
  | paused _ => true
  | _ => false

/-- Whether the thread has ended. -/
def isHalted : Status → Bool
  | halted => true
  | _ => false

end Status

namespace Progress

/-- A thread. -/
def thread (p : Progress) (v : Nat) : Thread := p.threads.getD v default

/-- A node. -/
def node (p : Progress) (n : Nat) : StackNode := p.nodes.getD n default

/-- Changes a node. -/
def setNode (p : Progress) (n : Nat) (node : StackNode) : Progress :=
  { p with nodes := p.nodes.set! n node }

/-- The top of the stack of a thread. -/
def top (p : Progress) (v : Nat) : StackNode := p.node (p.thread v).node

/-- The cost of the errors of a thread, with the one that it has just met. -/
def errorCost (p : Progress) (v : Nat) : Nat :=
  let top := p.top v
  let fresh := top.state = 0 && (top.links[0]?.bind (·.tree)).isNone
  top.cost + (if (p.thread v).status.isPaused || fresh then ErrorCost.recovery else 0)

/-- Whether two threads can go on as one. -/
def mergeable (p : Progress) (a b : Nat) : Bool :=
  let x := p.thread a
  let y := p.thread b
  let m := p.node x.node
  let n := p.node y.node
  x.status.isActive && y.status.isActive && m.state == n.state &&
    m.position.byte == n.position.byte && m.cost == n.cost && x.layout == y.layout

end Progress

namespace Stack

/-- Changes a thread. -/
def modifyThread (v : Nat) (f : Thread → Thread) : ParseM Unit :=
  modify fun p => { p with threads := p.threads.modify v f }

/-- Ends a thread and closes the gap in their numbers. -/
def remove (v : Nat) : ParseM Unit :=
  modify fun p => { p with threads := p.threads.eraseIdxIfInBounds v }

/-- A thread stops where it is. -/
def halt (v : Nat) : ParseM Unit := modifyThread v ({ · with status := .halted })

/-- Exchanges two threads. -/
def swap (a b : Nat) : ParseM Unit :=
  modify fun p =>
    let x := p.thread a
    let y := p.thread b
    { p with threads := (p.threads.set! a y).set! b x }

/-- A second thread with the same stack; returns its number. -/
def duplicate (v : Nat) : ParseM Nat :=
  modifyGet fun p =>
    (p.threads.size, { p with threads := p.threads.push { p.thread v with landmarks := none } })

/-- The thread `a` takes the place of the thread `b`. -/
def replace (a b : Nat) : ParseM Unit := do
  if a ≠ b then
    modify fun p =>
      let x := p.thread a
      let x := { x with landmarks := x.landmarks.or (p.thread b).landmarks }
      { p with threads := (p.threads.set! b x).eraseIdxIfInBounds a }

/-- Puts a tree on the stack of a thread, or the mark of an error. -/
def push (v : Nat) (tree : Option ParseTree) (state : Nat) : ParseM Unit :=
  modify fun p =>
    let thread := p.thread v
    let below := p.node thread.node
    let number := p.nodes.size
    match tree with
    | none =>
      { p with
        nodes := p.nodes.push { below with state, links := #[⟨thread.node, none⟩] }
        threads := p.threads.set! v
          { thread with node := number, nodesAtError := below.nodeCount } }
    | some t =>
      { p with
        nodes := p.nodes.push
          { state, position := t.stop, cost := below.cost + t.cost,
            nodeCount := below.nodeCount + t.nodeCount, weight := below.weight + t.weight,
            links := #[⟨thread.node, tree⟩] }
        threads := p.threads.set! v { thread with node := number } }

/-- Whether the trees of two links may stand for each other. -/
def linksAlike (a b : Link) : Bool :=
  match a.tree, b.tree with
  | some s, some t => s.interchangeable t
  | none, none => true
  | _, _ => false

/-- The weight of what lies below a node reached by a link. -/
def linkWeight (p : Progress) (l : Link) : Int :=
  (p.node l.node).weight + (match l.tree with
    | some t => t.weight
    | none => 0)

/-- Gives the node `n` another link. Where it has an equivalent one, the nodes below the two are
joined instead, or the tree of more weight is kept. `fuel` bounds the depth. -/
def addLink : Nat → Nat → Link → ParseM Unit
  | 0, _, _ => pure ()
  | fuel + 1, n, link => do
    if link.node = n then return
    let links := ((← get).node n).links
    for (known, i) in links.zipIdx do
      if linksAlike known link then
        if known.node = link.node then
          let weightOf (l : Link) : Int := (l.tree.map (·.weight)).getD 0
          if weightOf link > weightOf known then
            modify fun p =>
              let x := p.node n
              p.setNode n
                { x with
                  weight := linkWeight p link
                  links := x.links.set! i { known with tree := link.tree } }
          return
        let p ← get
        let a := p.node known.node
        let b := p.node link.node
        if a.state == b.state && a.position.byte == b.position.byte && a.cost == b.cost then
          for l in b.links do addLink fuel known.node l
          modify fun p =>
            let x := p.node n
            p.setNode n { x with weight := max x.weight (linkWeight p link) }
          return
    if links.size < maxLinks then
      modify fun p =>
        let x := p.node n
        let below := p.node link.node
        let count := below.nodeCount + (link.tree.map (·.nodeCount)).getD 0
        p.setNode n
          { x with
            links := x.links.push link
            nodeCount := max x.nodeCount count
            weight := max x.weight (linkWeight p link) }

/-- Joins the thread `b` to the thread `a` if the two can go on as one. -/
def merge (a b : Nat) : ParseM Bool := do
  let p ← get
  if !p.mergeable a b then return false
  let n := (p.thread a).node
  let fuel := p.nodes.size
  for l in (p.top b).links do addLink fuel n l
  modify fun p =>
    let top := p.node n
    if top.state = 0 then
      { p with threads := p.threads.modify a ({ · with nodesAtError := top.nodeCount }) }
    else p
  remove b
  return true

/-- A path down the stacks. -/
structure Path where
  node : Nat
  /-- The trees passed, in the order of the text. -/
  trees : List ParseTree := []
  /-- How many trees have been passed that are not extras. -/
  count : Nat := 0
deriving Inhabited

/-- What to do at a node on a path. -/
structure Verdict where
  /-- Pop the trees passed so far. -/
  pop : Bool := false
  /-- Go no further. -/
  stop : Bool := false

/-- Goes down a link. -/
def Path.follow (path : Path) (link : Link) : Path :=
  match link.tree with
  | some t =>
    { node := link.node, trees := t :: path.trees,
      count := if t.extra then path.count else path.count + 1 }
  | none => { path with node := link.node, count := path.count + 1 }

/-- Adds popped trees to the slices. A slice that ends at a node at which an earlier one ends comes
after the last such and shares its thread. -/
def addSlice (v : Nat) (slices : Array Slice) (path : Path) : ParseM (Array Slice) :=
  modifyGet fun p =>
    let trees := path.trees.toArray
    let same := (List.range slices.size).reverse.find? fun i =>
      (p.thread (slices.getD i default).thread).node == path.node
    match same with
    | some i =>
      let slice := { trees, thread := (slices.getD i default).thread }
      ((slices.extract 0 (i + 1)).push slice ++ slices.extract (i + 1) slices.size, p)
    | none =>
      let origin := p.thread v
      let fresh : Thread :=
        { node := path.node, nodesAtError := origin.nodesAtError, layout := origin.layout }
      (slices.push { trees, thread := p.threads.size },
        { p with threads := p.threads.push fresh })

/-- Follows all paths down the stack of a thread, a link of each in turn, as `visit` says. -/
def walk {σ : Type} (v : Nat) (visit : σ → StackNode → Path → Verdict × σ) (start : σ) :
    ParseM (Array Slice × σ) := do
  let p ← get
  let mut paths : Array Path := #[{ node := (p.thread v).node }]
  let mut slices : Array Slice := #[]
  let mut s := start
  for _ in [0:p.nodes.size + 1] do
    if paths.isEmpty then break
    let mut stay : Array Path := #[]
    let mut added : Array Path := #[]
    for (path, i) in paths.zipIdx do
      let node := (← get).node path.node
      let (verdict, next) := visit s node path
      s := next
      if verdict.pop then slices ← addSlice v slices path
      if !verdict.stop then
        match node.links[0]? with
        | none => pure ()
        | some first =>
          for link in node.links.toList.tail do
            if stay.size + (paths.size - i) + added.size < maxPaths then
              added := added.push (path.follow link)
          stay := stay.push (path.follow first)
    paths := stay ++ added
  return (slices, s)

/-- Pops as many trees as given, extras not counted. -/
def pop (v count : Nat) : ParseM (Array Slice) := do
  let visit (_ : Unit) (_ : StackNode) (path : Path) : Verdict × Unit :=
    let reached := path.count == count
    ({ pop := reached, stop := reached }, ())
  return (← walk v visit ()).1

/-- Pops everything. -/
def popAll (v : Nat) : ParseM (Array Slice) := do
  let visit (_ : Unit) (node : StackNode) (_ : Path) : Verdict × Unit :=
    ({ pop := node.links.isEmpty }, ())
  return (← walk v visit ()).1

/-- Pops an error from the top, if one is there; returns its parts. -/
def popError (v : Nat) : ParseM (Option ParseTree) := do
  let isError (t : ParseTree) : Bool := t.label == .error
  if !((← get).top v).links.any fun l => (l.tree.map isError).getD false then return none
  let visit (found : Bool) (_ : StackNode) (path : Path) : Verdict × Bool :=
    match path.trees with
    | [] => ({}, found)
    | t :: _ => if !found && isError t then ({ pop := true, stop := true }, true)
      else ({ stop := true }, found)
  match (← walk v visit false).1[0]? with
  | none => return none
  | some slice =>
    replace slice.thread v
    return slice.trees[0]?

/-- How far down a recovering parser looks for a place to go back to. -/
def maxDepth : Nat := 16

/-- The places in the stack of a thread to which a recovering parser can go back. -/
def landmarks (v : Nat) : ParseM (Array Landmark) := do
  let visit (known : Array Landmark) (node : StackNode) (path : Path) :
      Verdict × Array Landmark :=
    if path.count > maxDepth then ({ stop := true }, known)
    else if (known.toList.reverse.takeWhile (·.depth ≥ path.count)).any fun m =>
        m.depth == path.count && m.state == node.state then ({}, known)
    else
      ({}, known.push { position := node.position, depth := path.count, state := node.state })
  return (← walk v visit #[]).2

/-- How many nodes a thread has read since it last met an error. -/
def nodesSinceError (v : Nat) : ParseM Nat :=
  modifyGet fun p =>
    let count := (p.top v).nodeCount
    let known := min (p.thread v).nodesAtError count
    (count - known, { p with threads := p.threads.modify v ({ · with nodesAtError := known }) })

/-- Whether the trees from a node down, the first link of each node taken, show that something has
been read since `mark` nodes had been. -/
def advancedBelow (p : Progress) (mark : Nat) : Nat → StackNode → Bool
  | 0, _ => false
  | fuel + 1, node =>
    match node.links[0]? with
    | none => false
    | some link =>
      match link.tree with
      | none => false
      | some t =>
        t.stop.byte > t.before.byte ||
          (node.nodeCount > mark && t.cost == 0 && advancedBelow p mark fuel (p.node link.node))

/-- Whether a thread has read anything since it last met an error. -/
def hasAdvanced (p : Progress) (v : Nat) : Bool :=
  (p.top v).cost == 0 || advancedBelow p (p.thread v).nodesAtError p.nodes.size (p.top v)

end Stack

end CallAtlas.Parsing
