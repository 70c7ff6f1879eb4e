import CallAtlas.Proofs.Syntax.Place
import CallAtlas.Syntax.Search

/-!
# The search visits every node in order

The walk of a cursor comes to each node of a tree exactly once, with its distance from the root, and to
each before those inside it and those after it. It calls the check on one after another as long as the
check reports nothing, and the count of levels never falls below zero. So the search ends in what the
check reports at the least place where it reports anything.
-/

namespace CallAtlas.Syntax

variable {σ α : Type}

namespace Node

mutual

/-- All nodes of a tree whose root has the given depth, with their depths, each before its children. -/
def withDepths (depth : Nat) : Node → List (Node × Nat)
  | node shape children => (node shape children, depth) :: withDepthsAll (depth + 1) children

/-- All nodes of some trees whose roots have the given depth, with their depths, each before its
children. -/
def withDepthsAll (depth : Nat) : List Node → List (Node × Nat)
  | [] => []
  | n :: rest => n.withDepths depth ++ withDepthsAll depth rest

end

theorem withDepthsAll_eq_flatMap (depth : Nat) (cs : List Node) :
    withDepthsAll depth cs = cs.flatMap (withDepths depth) := by
  induction cs with
  | nil => rfl
  | cons c cs ih => rw [withDepthsAll, List.flatMap_cons, ih]

/-- The depth of a node is its distance from the root. -/
theorem withDepths_eq_filterMap (depth : Nat) (n : Node) : n.withDepths depth =
    n.places.filterMap fun p => (n.nodeAt? p).map fun m => (m, depth + p.length) := by
  induction n using induct generalizing depth with
  | h shape children ih =>
    have hstep : ∀ i c, (node shape children).children[i]? = some c → ∀ p,
        ((node shape children).nodeAt? (i :: p)).map (fun m => (m, depth + (i :: p).length)) =
          (c.nodeAt? p).map fun m => (m, depth + 1 + p.length) := by
      intro i c hc p
      rw [nodeAt?_cons hc, List.length_cons, Nat.add_assoc, Nat.add_comm 1]
    rw [filterMap_places hstep, withDepths, withDepthsAll_eq_flatMap]
    refine congrArg (List.cons _) (List.flatMap_congr fun c hc => ?_)
    exact ih c hc (depth + 1)

end Node

namespace Cursor

/-! ## One node after another -/

/-- Goes on with something else if a check has nothing to report. -/
def orNext (r : StateM σ (Option α)) (next : StateM σ (Outcome α)) : StateM σ (Outcome α) := do
  match ← r with
  | some report => return .found report
  | none => next

/-- Goes on at the node to which a climb has led. -/
def resume (check : Node → Nat → StateM σ (Option α)) :
    Outcome (Cursor × Nat) → StateM σ (Outcome α)
  | .found (c, depth) => c.walk check depth
  | .exhausted => return .exhausted
  | .negativeDepth => return .negativeDepth

/-- Calls a check on some nodes until it reports something. -/
def firstReport (check : Node → Nat → StateM σ (Option α)) (nodes : List (Node × Nat)) :
    StateM σ (Option α) :=
  nodes.findSomeM? fun entry => check entry.1 entry.2

variable {check : Node → Nat → StateM σ (Option α)}

theorem walk_eq (c : Cursor) (depth : Nat) : c.walk check depth =
    orNext (check c.node depth) (match c.firstChild? with
      | some child => child.walk check (depth + 1)
      | none => resume check (c.climb depth)) := by
  rw [walk, orNext]
  refine bind_congr fun r => ?_
  cases r with
  | some report => rfl
  | none =>
    cases c.firstChild? with
    | some child => rfl
    | none => cases c.climb depth <;> rfl

theorem orNext_firstReport_cons (n : Node) (depth : Nat) (nodes : List (Node × Nat))
    (next : StateM σ (Outcome α)) : orNext (firstReport check ((n, depth) :: nodes)) next =
      orNext (check n depth) (orNext (firstReport check nodes) next) := by
  rw [firstReport, List.findSomeM?_cons, orNext, orNext, bind_assoc]
  refine bind_congr fun r => ?_
  cases r <;> rfl

theorem orNext_firstReport_append (nodes others : List (Node × Nat)) (next : StateM σ (Outcome α)) :
    orNext (firstReport check (nodes ++ others)) next =
      orNext (firstReport check nodes) (orNext (firstReport check others) next) := by
  induction nodes with
  | nil => rfl
  | cons entry nodes ih => rw [List.cons_append, orNext_firstReport_cons, ih, orNext_firstReport_cons]

/-! ## Climbing -/

theorem climb_root (root : Node) (depth : Nat) : (ofRoot root).climb depth = .exhausted := by
  rw [climb]
  rfl

theorem climb_sibling (n : Node) (parent : Shape) (before : List Node) (sibling : Node)
    (after : List Node) (outer : List Level) (depth : Nat) :
    (Cursor.mk n (⟨parent, before, sibling :: after⟩ :: outer)).climb depth =
      .found (⟨sibling, ⟨parent, n :: before, after⟩ :: outer⟩, depth) := by
  rw [climb]
  rfl

/-- Behind the last sibling the climb goes on from the parent. -/
theorem climb_last (n : Node) (parent : Shape) (before : List Node) (outer : List Level)
    (depth : Nat) : (Cursor.mk n (⟨parent, before, []⟩ :: outer)).climb (depth + 1) =
      (Cursor.mk ((⟨parent, before, []⟩ : Level).close n) outer).climb depth := by
  rw [climb]
  rfl

/-! ## The walk -/

/-- The walk goes through a node and all that is inside it before it climbs. A walk through the children
keeps those already visited before it, so that it climbs from the node that it started with. -/
theorem walk_subtree (n : Node) : ∀ levels depth,
    (Cursor.mk n levels).walk check depth = orNext (firstReport check (n.withDepths depth))
      (resume check ((Cursor.mk n levels).climb depth)) := by
  induction n using Node.induct with
  | h shape children ih =>
    intro levels depth
    have hchildren : ∀ after before child, before.reverse ++ child :: after = children →
        (Cursor.mk child (⟨shape, before, after⟩ :: levels)).walk check (depth + 1) =
          orNext (firstReport check (Node.withDepthsAll (depth + 1) (child :: after)))
            (resume check ((Cursor.mk (.node shape children) levels).climb depth)) := by
      intro after
      induction after with
      | nil =>
        intro before child hsplit
        have hclose : (⟨shape, before, []⟩ : Level).close child = .node shape children := by
          rw [Level.close, hsplit]
        rw [ih child (by simp [← hsplit]), climb_last, hclose, Node.withDepthsAll,
          Node.withDepthsAll, List.append_nil]
      | cons sibling after ihafter =>
        intro before child hsplit
        have hrest : (child :: before).reverse ++ sibling :: after = children := by
          rw [List.reverse_cons, List.append_assoc, List.singleton_append, hsplit]
        rw [Node.withDepthsAll, orNext_firstReport_append, ← ihafter _ _ hrest,
          ih child (by simp [← hsplit]), climb_sibling, resume]
    rw [walk_eq, Node.withDepths, orNext_firstReport_cons]
    cases children with
    | nil => rfl
    | cons child after =>
      congr 1
      exact hchildren after [] child rfl

theorem orNext_exhausted (r : StateM σ (Option α)) :
    orNext r (return .exhausted) = Outcome.ofOption <$> r := by
  rw [orNext, map_eq_pure_bind]
  refine bind_congr fun report => ?_
  cases report <;> rfl

/-- The walk from the root calls the check on one node after another, and comes back to the root when it
has nothing to report on any. -/
theorem walk_ofRoot (root : Node) : (ofRoot root).walk check 0 =
    Outcome.ofOption <$> firstReport check (root.withDepths 0) := by
  rw [ofRoot, walk_subtree, ← ofRoot, climb_root, resume, orNext_exhausted]

/-! ## The calls of the check -/

/-- A check that keeps the nodes on which it is called, with their depths. -/
def recorded (check : Node → Nat → Option α) (n : Node) (depth : Nat) :
    StateM (List (Node × Nat)) (Option α) := do
  modify (· ++ [(n, depth)])
  return check n depth

/-- The check is called on the nodes up to the first on which it has something to report. -/
theorem run_firstReport_recorded (check : Node → Nat → Option α) (nodes calls : List (Node × Nat)) :
    (firstReport (recorded check) nodes).run calls =
      (nodes.findSome? fun entry => check entry.1 entry.2,
        calls ++ nodes.take (nodes.findIdx (fun entry => (check entry.1 entry.2).isSome) + 1)) := by
  induction nodes generalizing calls with
  | nil =>
    rw [List.take_nil, List.append_nil]
    rfl
  | cons entry nodes ih =>
    obtain ⟨n, depth⟩ := entry
    have hstep : (firstReport (recorded check) ((n, depth) :: nodes)).run calls =
        match check n depth with
        | some report => (some report, calls ++ [(n, depth)])
        | none => (firstReport (recorded check) nodes).run (calls ++ [(n, depth)]) := by
      rw [firstReport, List.findSomeM?_cons]
      cases hreport : check n depth with
      | some report =>
        simp only [recorded, hreport]
        rfl
      | none =>
        simp only [recorded, hreport]
        rfl
    rw [hstep, List.findSome?_cons, List.findIdx_cons]
    cases check n depth with
    | some report => simp
    | none => simp [ih]

end Cursor

namespace Node

variable (check : Node → Nat → Option α)

theorem search_eq_findSome?_withDepths (root : Node) :
    root.search check = (root.withDepths 0).findSome? fun entry => check entry.1 entry.2 := by
  have hpure : Cursor.firstReport (σ := Unit) (fun n depth => return check n depth)
      (root.withDepths 0) = return (root.withDepths 0).findSome? fun entry => check entry.1 entry.2 :=
    List.findSomeM?_pure
  rw [search, Cursor.walk_ofRoot, hpure, map_pure]
  cases (root.withDepths 0).findSome? fun entry => check entry.1 entry.2 <;> rfl

/-- What a check reports at a place of a tree. -/
def reportAt (n : Node) (p : Place) : Option α := (n.nodeAt? p).bind fun m => check m p.length

theorem search_eq_findSome? (root : Node) :
    root.search check = root.places.findSome? (reportAt check root) := by
  rw [search_eq_findSome?_withDepths, withDepths_eq_filterMap, ← List.head?_filterMap,
    ← List.head?_filterMap, List.filterMap_filterMap]
  refine congrArg List.head? (List.filterMap_congr fun p _ => ?_)
  rw [Option.bind_map, reportAt, Nat.zero_add]
  rfl

theorem reportAt_ne_none_iff {root : Node} {p : Place} :
    reportAt check root p ≠ none ↔ ∃ m, root.nodeAt? p = some m ∧ check m p.length ≠ none := by
  rw [reportAt]
  cases root.nodeAt? p <;> simp

variable {check}

/-- The search ends in what the check reports at the first place where it reports anything. -/
theorem search_eq_some_iff {root : Node} {a : α} :
    root.search check = some a ↔ ∃ p m, root.nodeAt? p = some m ∧ check m p.length = some a ∧
      IsLeast {q | ∃ k, root.nodeAt? q = some k ∧ check k q.length ≠ none} p := by
  rw [search_eq_findSome?, findSome?_places_eq_some_iff]
  · simp only [reportAt_ne_none_iff]
    simp only [reportAt, Option.bind_eq_some_iff]
    constructor
    · rintro ⟨p, ⟨m, hm, ha⟩, hleast⟩
      exact ⟨p, m, hm, ha, hleast⟩
    · rintro ⟨p, m, hm, ha, hleast⟩
      exact ⟨p, ⟨m, hm, ha⟩, hleast⟩
  · intro p hp
    obtain ⟨m, hm, -⟩ := (reportAt_ne_none_iff check).1 hp
    exact mem_places.2 ⟨m, hm⟩

theorem search_eq_none_iff {root : Node} :
    root.search check = none ↔ ∀ p m, root.nodeAt? p = some m → check m p.length = none := by
  rw [search_eq_findSome?, List.findSome?_eq_none_iff]
  constructor
  · intro h p m hm
    have hp := h p (mem_places.2 ⟨m, hm⟩)
    rwa [reportAt, hm, Option.bind_some] at hp
  · intro h p hp
    obtain ⟨m, hm⟩ := mem_places.1 hp
    rw [reportAt, hm, Option.bind_some]
    exact h p m hm

theorem map_fst_withDepths (depth : Nat) (n : Node) :
    (n.withDepths depth).map Prod.fst = n.preorder := by
  induction n using induct generalizing depth with
  | h shape children ih =>
    have hchildren : ∀ cs : List Node, (∀ c ∈ cs, c ∈ children) →
        (withDepthsAll (depth + 1) cs).map Prod.fst = preorderAll cs := by
      intro cs hcs
      induction cs with
      | nil => rfl
      | cons c cs ihcs =>
        rw [withDepthsAll, List.map_append, preorderAll, ih c (hcs c (by simp)),
          ihcs fun d hd => hcs d (by simp [hd])]
    rw [withDepths, List.map_cons, hchildren children fun _ h => h, preorder]

/-- The walk through a tree visits all nodes in the order in which each stands before its children, and
counts for each its distance from the root. Whatever the check does, the walk comes to an end with the
first report of the check on these nodes, called on one after another, or is exhausted if there is none;
the depth never falls below zero. The check is called on the nodes up to the first report and on no
other. -/
theorem search_visits_in_order (root : Node) :
    let nodes := root.withDepths 0
    nodes.map Prod.fst = root.preorder ∧
    nodes = (root.places.filterMap fun p => (root.nodeAt? p).map fun n => (n, p.length)) ∧
    (∀ (σ α : Type) (check : Node → Nat → StateM σ (Option α)),
      (Cursor.ofRoot root).walk check 0 =
        Outcome.ofOption <$> nodes.findSomeM? fun entry => check entry.1 entry.2) ∧
    (∀ (α : Type) (check : Node → Nat → Option α),
      root.search check = nodes.findSome? (fun entry => check entry.1 entry.2) ∧
      (root.search check = none ↔ ∀ entry ∈ nodes, check entry.1 entry.2 = none) ∧
      ((Cursor.ofRoot root).walk (Cursor.recorded check) 0).run [] =
        (.ofOption (root.search check),
          nodes.take (nodes.findIdx (fun entry => (check entry.1 entry.2).isSome) + 1))) := by
  intro nodes
  refine ⟨map_fst_withDepths 0 root, ?_, fun σ α check => Cursor.walk_ofRoot root,
    fun α check => ?_⟩
  · simpa only [Nat.zero_add] using withDepths_eq_filterMap 0 root
  · have hsearch := search_eq_findSome?_withDepths check root
    refine ⟨hsearch, by rw [hsearch, List.findSome?_eq_none_iff], ?_⟩
    rw [Cursor.walk_ofRoot, StateT.run_map, Cursor.run_firstReport_recorded, hsearch, List.nil_append]
    rfl

end Node

end CallAtlas.Syntax
