import CallAtlas.Proofs.Syntax.Acceptance

/-!
# How deep the walks nest

A walk through a tree calls itself for the children of each node, so that its calls nest as deep as the
tree has levels. Here the walks have versions that give up beyond a given nesting. They do so exactly
on trees with more levels, and the limit on the depth of a program sees to it that they never do.
-/

namespace CallAtlas.Syntax

open Text

namespace Node

mutual

/-- How many nodes stand one below the other at most. -/
def levels : Node → Nat
  | node _ children => levelsAll children + 1

/-- The levels of the tree among some that has most. -/
def levelsAll : List Node → Nat
  | [] => 0
  | n :: rest => max n.levels (levelsAll rest)

end

theorem levels_eq (n : Node) : n.levels = levelsAll n.children + 1 := by
  cases n
  rw [levels, children]

theorem levelsAll_le_iff {cs : List Node} {limit : Nat} :
    levelsAll cs ≤ limit ↔ ∀ c ∈ cs, c.levels ≤ limit := by
  induction cs with
  | nil => simp [levelsAll]
  | cons n rest ih => rw [levelsAll, Nat.max_le, ih, List.forall_mem_cons]

/-- The deepest node of a tree has one step less above it than the tree has levels. -/
theorem levels_le_iff {n : Node} {nesting : Nat} :
    n.levels ≤ nesting ↔ ∀ p m, n.nodeAt? p = some m → p.length < nesting := by
  induction nesting generalizing n with
  | zero =>
    rw [levels_eq]
    exact iff_of_false (by omega) fun h => absurd (h [] n rfl) (Nat.lt_irrefl 0)
  | succ nesting ih =>
    rw [levels_eq, Nat.add_le_add_iff_right, levelsAll_le_iff]
    simp only [ih]
    constructor
    · intro h p m hm
      cases p with
      | nil => exact Nat.succ_pos nesting
      | cons i p =>
        obtain ⟨c, hc, hm⟩ := nodeAt?_cons_eq_some_iff.1 hm
        exact Nat.succ_lt_succ (h c (List.mem_of_getElem? hc) p m hm)
    · intro h c hmem p m hm
      obtain ⟨i, hc⟩ := List.mem_iff_getElem?.1 hmem
      exact Nat.lt_of_succ_lt_succ (h (i :: p) m (nodeAt?_cons_eq_some_iff.2 ⟨c, hc, hm⟩))

theorem levels_le_succ_iff {n : Node} {limit : Nat} :
    n.levels ≤ limit + 1 ↔ ∀ p m, n.nodeAt? p = some m → p.length ≤ limit := by
  simp only [levels_le_iff, Nat.lt_succ_iff]

theorem levels_le_of_within {m n : Node} (h : Within m n) : m.levels ≤ n.levels := by
  obtain ⟨p, hp⟩ := h
  induction p generalizing n with
  | nil => exact le_of_eq (congrArg levels (Option.some.inj hp).symm)
  | cons i p ih =>
    obtain ⟨c, hc, hm⟩ := nodeAt?_cons_eq_some_iff.1 hp
    have hchild := levelsAll_le_iff.1 le_rfl c (List.mem_of_getElem? hc)
    rw [levels_eq n]
    exact (ih hm).trans (hchild.trans (Nat.le_succ _))

/-! ## Walks with a bound -/

/-- A walk that goes through all nodes of a tree, each before its children. -/
structure Walk (σ α : Type) where
  /-- What the children of a node are told, by what the node has been told. -/
  told : σ → Node → σ
  /-- What has been gathered after a node and before its children. -/
  gathered : σ → Node → α → α

namespace Walk

variable {σ α : Type} (w : Walk σ α)

/-- The function makes the walk: from each node it calls itself for the children. -/
def MadeBy (f : σ → Node → α → α) : Prop :=
  ∀ s n found, f s n found =
    n.children.foldl (fun found c => f (w.told s n) c found) (w.gathered s n found)

/-- The walk by calls that nest no deeper than a bound. -/
def runWithin : Nat → σ → Node → α → Option α
  | 0, _, _, _ => none
  | nesting + 1, s, n, found =>
    n.children.foldlM (fun found c => runWithin nesting (w.told s n) c found) (w.gathered s n found)

theorem foldlM_within {f : α → Node → Option α} {g : α → Node → α} {limit : Nat} {cs : List Node}
    (h : ∀ c ∈ cs, ∀ found, f found c = if c.levels ≤ limit then some (g found c) else none)
    (found : α) :
    cs.foldlM f found = if levelsAll cs ≤ limit then some (cs.foldl g found) else none := by
  induction cs generalizing found with
  | nil => rfl
  | cons c cs ih =>
    have hrest := ih fun d hd => h d (by simp [hd])
    rw [List.foldlM_cons, h c (by simp), List.foldl_cons]
    by_cases hc : c.levels ≤ limit
    · simp only [hc, if_true, Option.bind_eq_bind, Option.bind_some, hrest, levelsAll, Nat.max_le,
        true_and]
    · simp only [hc, if_false, Option.bind_eq_bind, Option.bind_none, levelsAll, Nat.max_le,
        false_and]

variable {w}

/-- A walk with a bound comes to the same end as the walk itself if the tree has no more levels than
the bound allows, and gives up otherwise. -/
theorem MadeBy.runWithin_eq {f : σ → Node → α → α} (h : w.MadeBy f) (nesting : Nat) (s : σ)
    (n : Node) (found : α) :
    w.runWithin nesting s n found = if n.levels ≤ nesting then some (f s n found) else none := by
  induction nesting generalizing s n found with
  | zero => rw [runWithin, if_neg (by rw [levels_eq]; omega)]
  | succ nesting ih =>
    rw [runWithin, foldlM_within fun c _ found => ih (w.told s n) c found, h, levels_eq]
    simp only [Nat.add_le_add_iff_right]

end Walk

/-! ## The search for the first error -/

/-- The first report on those of some nodes that are marked as having errors. -/
def firstReport (report : Node → Option (Option Diagnostic)) :
    List Node → Option (Option Diagnostic)
  | [] => some none
  | n :: rest =>
    match (if n.hasError then report n else some none) with
    | none => none
    | some (some d) => some (some d)
    | some none => firstReport report rest

/-- `firstError` by calls that nest no deeper than a bound. -/
def firstErrorWithin (source : Source) : Nat → Node → Option (Option Diagnostic)
  | 0, _ => none
  | nesting + 1, n =>
    if n.missing then some (some (.atNode n (.missing n.listedKind)))
    else
      match firstReport (firstErrorWithin source nesting) n.children with
      | none => none
      | some (some d) => some (some d)
      | some none =>
        if n.listedKind = .error then
          some (some (.atNode n (.unexpected (snippet (n.text source)))))
        else some none

theorem firstReport_eq {source : Source} {report : Node → Option (Option Diagnostic)}
    {cs : List Node} (h : ∀ c ∈ cs, report c = some (c.firstError source)) :
    firstReport report cs = some (firstErrorAmong source cs) := by
  induction cs with
  | nil => rfl
  | cons c cs ih =>
    rw [firstReport, firstErrorAmong, h c (by simp), ih fun d hd => h d (by simp [hd])]
    cases c.hasError <;> cases c.firstError source <;> rfl

theorem firstErrorWithin_eq (source : Source) {nesting : Nat} {n : Node}
    (h : n.levels ≤ nesting) :
    n.firstErrorWithin source nesting = some (n.firstError source) := by
  induction nesting generalizing n with
  | zero =>
    rw [levels_eq] at h
    omega
  | succ nesting ih =>
    obtain ⟨shape, children⟩ := n
    rw [levels, Nat.add_le_add_iff_right, levelsAll_le_iff] at h
    rw [firstErrorWithin, firstError, Node.children, firstReport_eq fun c hc => ih (h c hc)]
    simp only [missing, Node.shape, listedKind]
    by_cases hmissing : shape.missing
    · simp [hmissing]
    · cases firstErrorAmong source children with
      | some d => simp [hmissing]
      | none => by_cases herror : shape.listedKind = .error <;> simp [hmissing, herror]

end Node

/-! ## Parsing -/

namespace Tree

/-- `refusal` with a bound on the nesting of the search for the first error. -/
def refusalWithin (nesting : Nat) (settings : ParsingSettings) (t : Tree) :
    Option (Option Failure) :=
  match t.root.deeperThan settings.maxDepth with
  | some line => some (some (.nestingTooDeep line settings.maxDepth))
  | none =>
    if t.root.hasError then
      (t.root.firstErrorWithin t.source nesting).map fun found =>
        some (.syntaxError (found.getD (.atNode t.root .invalid)))
    else some ((t.root.firstInvalid t.source).map .syntaxError)

/-- `parse` with a bound on the nesting of the search for the first error. -/
def parseWithin (nesting : Nat) (grammar : Grammar) (settings : ParsingSettings)
    (source : Source) : Option (Except Failure Tree) :=
  if source.size > settings.maxFileSize then
    some (.error (.inputTooLarge source.size settings.maxFileSize))
  else
    match grammar source with
    | none => some (.error .noTree)
    | some root =>
      let tree : Tree := { root, source }
      (tree.refusalWithin nesting settings).map fun
        | some failure => .error failure
        | none => .ok tree

theorem refusalWithin_of_levels {settings : ParsingSettings} {t : Tree} {nesting : Nat}
    (h : t.root.deeperThan settings.maxDepth = none → t.root.levels ≤ nesting) :
    t.refusalWithin nesting settings = some (t.refusal settings) := by
  rw [refusalWithin, refusal]
  cases hdeep : t.root.deeperThan settings.maxDepth with
  | some line => rfl
  | none =>
    rw [Node.firstErrorWithin_eq t.source (h hdeep)]
    cases t.root.hasError <;> rfl

theorem parseWithin_of_levels {grammar : Grammar} {settings : ParsingSettings} {source : Source}
    {nesting : Nat}
    (h : ∀ root, grammar source = some root → root.deeperThan settings.maxDepth = none →
      root.levels ≤ nesting) :
    parseWithin nesting grammar settings source = some (parse grammar settings source) := by
  rw [parseWithin, parse]
  split
  · rfl
  · cases hroot : grammar source with
    | none => rfl
    | some root =>
      have hrefusal := refusalWithin_of_levels (t := { root, source }) (h root hroot)
      exact congrArg (Option.map _) hrefusal

/-- The limit on the depth bounds the search for the first error. -/
theorem parseWithin_maxDepth (grammar : Grammar) (settings : ParsingSettings) (source : Source) :
    parseWithin (settings.maxDepth + 1) grammar settings source =
      some (parse grammar settings source) :=
  parseWithin_of_levels fun _ _ hdeep =>
    Node.levels_le_succ_iff.2 (Node.deeperThan_eq_none_iff.1 hdeep)

/-- On a tree that is too deep the search is not made at all. -/
theorem parseWithin_of_deep {grammar : Grammar} {settings : ParsingSettings} {source : Source}
    {root : Node} (hroot : grammar source = some root)
    (hdeep : ∃ p m, root.nodeAt? p = some m ∧ settings.maxDepth < p.length) (nesting : Nat) :
    parseWithin nesting grammar settings source = some (parse grammar settings source) := by
  refine parseWithin_of_levels fun root' hroot' hnone => ?_
  obtain rfl := Option.some.inj (hroot.symm.trans hroot')
  obtain ⟨p, m, hm, hlt⟩ := hdeep
  exact absurd (Node.deeperThan_eq_none_iff.1 hnone p m hm) (Nat.not_le.2 hlt)

/-- No accepted program has a node deeper than the limit. -/
theorem levels_of_parse {grammar : Grammar} {settings : ParsingSettings} {source : Source}
    {t : Tree} (h : parse grammar settings source = .ok t) :
    t.root.levels ≤ settings.maxDepth + 1 := by
  cases hroot : grammar source with
  | none =>
    rw [parse, hroot] at h
    split at h <;> cases h
  | some root =>
    obtain ⟨rfl, -, hshallow, -⟩ := ((judged_parse hroot settings).accepted t).1 h
    exact Node.levels_le_succ_iff.2 hshallow

end Tree

end CallAtlas.Syntax
