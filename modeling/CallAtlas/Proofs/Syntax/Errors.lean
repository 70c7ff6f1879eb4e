import CallAtlas.Proofs.Syntax.Acceptance
import CallAtlas.Proofs.Syntax.InOrder
import CallAtlas.Proofs.Syntax.Postorder

/-!
# The first error

The search for the first error passes over what is not marked as having errors. It still finds the
first node that shows an error in the order that has each node after all inside it, so that of errors
inside each other an inner one is reported. A refused program is said to be invalid without further
reason only if no node of its tree shows an error.

What counts as an error is how the parent lists a node. In a body that is written on the line of its
header text that fits nowhere is listed as a block, and the search misses it: the statements hold of the
nodes that are listed as errors, and of the errors themselves in a tree whose errors are all listed as
such.
-/

namespace CallAtlas.Syntax

open Text

/-! ## Nodes that show errors -/

namespace Node

/-- The node is a token that the parser has put in, or text that fits nowhere. `kindOf` says which kind
of a node counts, its own or the one under which its parent lists it. -/
def ShowsError (kindOf : Node → Kind) (n : Node) : Prop := n.missing = true ∨ kindOf n = .error

instance (kindOf : Node → Kind) (n : Node) : Decidable (n.ShowsError kindOf) :=
  inferInstanceAs (Decidable (n.missing = true ∨ kindOf n = .error))

/-- What is said of a node that shows an error. -/
def ownError (kindOf : Node → Kind) (source : Source) (n : Node) : Option Diagnostic :=
  if n.missing then some (.atNode n (.missing n.listedKind))
  else if kindOf n = .error then some (.atNode n (.unexpected (snippet (n.text source))))
  else none

/-- What is said of the node at a place if it shows an error. -/
def errorAt (kindOf : Node → Kind) (source : Source) (root : Node) (p : Place) : Option Diagnostic :=
  (root.nodeAt? p).bind (·.ownError kindOf source)

/-- Each node that shows an error or holds one that does is marked as having errors. Others may be
marked as well. -/
def Marked (kindOf : Node → Kind) (root : Node) : Prop :=
  ∀ m, Within m root → ∀ k, Within k m → k.ShowsError kindOf → m.hasError = true

/-- The texts of the tree that fit nowhere by the kinds that count are those that their parents list as
such. -/
def ErrorsListed (kindOf : Node → Kind) (root : Node) : Prop :=
  ∀ m, Within m root → (kindOf m = .error ↔ m.listedKind = .error)

variable {kindOf : Node → Kind} {source : Source} {n m k c : Node} {p q : Place} {d : Diagnostic}

theorem errorsListed_listedKind (root : Node) : root.ErrorsListed listedKind :=
  fun _ _ => .rfl

theorem ErrorsListed.child (h : n.ErrorsListed kindOf) (hc : c ∈ n.children) :
    c.ErrorsListed kindOf :=
  fun m hm => h m (hm.trans (within_of_mem_children hc))

theorem ErrorsListed.self (h : n.ErrorsListed kindOf) : kindOf n = .error ↔ n.listedKind = .error :=
  h n ⟨[], rfl⟩

theorem ownError_eq_none_iff : n.ownError kindOf source = none ↔ ¬ n.ShowsError kindOf := by
  rw [ownError, ShowsError]
  split
  · rename_i hmissing
    simp [hmissing]
  · rename_i hmissing
    simp [hmissing]

theorem atNode_of_ownError (h : n.ownError kindOf source = some d) :
    ∃ complaint, d = .atNode n complaint ∧ complaint ≠ .invalid := by
  rw [ownError] at h
  split at h
  · exact ⟨_, (Option.some.inj h).symm, nofun⟩
  · split at h
    · exact ⟨_, (Option.some.inj h).symm, nofun⟩
    · cases h

theorem errorAt_ne_none_iff :
    errorAt kindOf source n p ≠ none ↔ ∃ m, n.nodeAt? p = some m ∧ m.ShowsError kindOf := by
  rw [errorAt]
  cases n.nodeAt? p with
  | none => simp
  | some m => simp [ownError_eq_none_iff]

theorem Marked.child (h : n.Marked kindOf) (hc : c ∈ n.children) : c.Marked kindOf :=
  fun m hm => h m (hm.trans (within_of_mem_children hc))

/-! ## The search -/

theorem firstErrorAmong_eq (source : Source) (cs : List Node) : firstErrorAmong source cs =
    cs.findSome? fun c => if c.hasError then c.firstError source else none := by
  induction cs with
  | nil => rfl
  | cons c cs ih =>
    rw [firstErrorAmong, List.findSome?_cons, ih]
    cases (if c.hasError then c.firstError source else none) <;> rfl

theorem firstError_of_missing (h : n.missing = true) :
    n.firstError source = n.ownError kindOf source := by
  obtain ⟨shape, cs⟩ := n
  rw [firstError, ownError, if_pos h]
  exact if_pos h

theorem firstError_of_not_missing (h : ¬ n.missing = true)
    (hlisted : kindOf n = .error ↔ n.listedKind = .error) :
    n.firstError source = (firstErrorAmong source n.children).or (n.ownError kindOf source) := by
  obtain ⟨shape, cs⟩ := n
  rw [firstError, ownError, if_neg h, if_congr hlisted rfl rfl]
  refine (if_neg h).trans ?_
  show _ = (firstErrorAmong source cs).or _
  cases firstErrorAmong source cs <;> rfl

/-- The node at a place shows an error. Others that do may be inside it only if it has been put in;
otherwise they come later in the tree or are texts around it. -/
structure FirstError (kindOf : Node → Kind) (root : Node) (p : Place) (m : Node) : Prop where
  nodeAt : root.nodeAt? p = some m
  shows : m.ShowsError kindOf
  inner : m.missing = false → ∀ q k, m.nodeAt? q = some k → k.ShowsError kindOf → q = []
  before : ∀ q k, root.nodeAt? q = some k → k.ShowsError kindOf →
    p ≤ q ∨ q <+: p ∧ k.missing = false

/-- If nothing inside a node shows an error, the node is the first one to show one. -/
theorem firstError_here (hshows : n.ShowsError kindOf)
    (h : n.missing = true ∨ ∀ c ∈ n.children, ∀ m, Within m c → ¬ m.ShowsError kindOf) :
    FirstError kindOf n [] n where
  nodeAt := rfl
  shows := hshows
  inner := by
    intro hmissing q k hk hshows
    cases q with
    | nil => rfl
    | cons i q =>
      obtain ⟨c, hc, hk⟩ := nodeAt?_cons_eq_some_iff.1 hk
      have hclean := h.resolve_left (by simp [hmissing])
      exact absurd hshows (hclean c (List.mem_of_getElem? hc) k ⟨q, hk⟩)
  before q _ _ _ := .inl (not_lt.1 (List.not_lt_nil q))

/-- The first error in a child is that of the node if no child before shows any. -/
theorem FirstError.of_child {i : Nat} (hc : n.children[i]? = some c) (h : FirstError kindOf c p m)
    (hmissing : n.missing = false)
    (hbefore : ∀ j, j < i → ∀ e, n.children[j]? = some e →
      ∀ k, Within k e → ¬ k.ShowsError kindOf) :
    FirstError kindOf n (i :: p) m where
  nodeAt := by rw [nodeAt?_cons hc, h.nodeAt]
  shows := h.shows
  inner := h.inner
  before := by
    intro q k hk hshows
    cases q with
    | nil =>
      obtain rfl := Option.some.inj hk
      exact .inr ⟨List.nil_prefix, hmissing⟩
    | cons j q =>
      obtain ⟨e, he, hk⟩ := nodeAt?_cons_eq_some_iff.1 hk
      rcases Nat.lt_trichotomy j i with hji | rfl | hij
      · exact absurd hshows (hbefore j hji e he k ⟨q, hk⟩)
      · obtain rfl := Option.some.inj (hc.symm.trans he)
        rcases h.before q k hk hshows with hle | ⟨hin, hk'⟩
        · refine .inl ?_
          rcases eq_or_lt_of_le hle with rfl | hlt
          · exact le_rfl
          · exact le_of_lt (List.cons_lt_cons_iff.2 (.inr ⟨rfl, hlt⟩))
        · exact .inr ⟨(List.prefix_cons_inj j).2 hin, hk'⟩
      · exact .inl (le_of_lt (List.cons_lt_cons_iff.2 (.inl hij)))

/-- The search finds nothing where nothing shows an error, and otherwise the first error. -/
theorem firstError_cases (source : Source) (hlisted : n.ErrorsListed kindOf)
    (hmarked : n.Marked kindOf) :
    (n.firstError source = none ∧ ∀ m, Within m n → ¬ m.ShowsError kindOf) ∨
      ∃ p m, FirstError kindOf n p m ∧ n.firstError source = m.ownError kindOf source := by
  -- the search goes by the lists of the parents, so `hlisted` is used once at each node
  induction n using induct with
  | h shape cs ih =>
    -- a child that the search passes over shows no error, be it marked or not
    have hpassed : ∀ c ∈ cs, (if c.hasError then c.firstError source else none) = none →
        ∀ m, Within m c → ¬ m.ShowsError kindOf := by
      intro c hc hnone
      by_cases hmark : c.hasError = true
      · rw [if_pos hmark] at hnone
        rcases ih c hc (hlisted.child hc) (hmarked.child hc) with
          ⟨-, hclean⟩ | ⟨p, m, hfirst, heq⟩
        · exact hclean
        · exact absurd hfirst.shows (ownError_eq_none_iff.1 (heq.symm.trans hnone))
      · intro m hm hshows
        exact hmark (hmarked c (within_of_mem_children hc) m hm hshows)
    by_cases hmissing : (node shape cs).missing = true
    · rw [firstError_of_missing hmissing]
      exact .inr ⟨[], _, firstError_here (.inl hmissing) (.inl hmissing), rfl⟩
    · rw [firstError_of_not_missing hmissing hlisted.self, firstErrorAmong_eq, children]
      cases hfound : cs.findSome? fun c => if c.hasError then c.firstError source else none with
      | none =>
        have hclean : ∀ c ∈ cs, ∀ m, Within m c → ¬ m.ShowsError kindOf :=
          fun c hc => hpassed c hc (List.findSome?_eq_none_iff.1 hfound c hc)
        rw [Option.none_or]
        by_cases hshows : (node shape cs).ShowsError kindOf
        · exact .inr ⟨[], _, firstError_here hshows (.inr hclean), rfl⟩
        · refine .inl ⟨ownError_eq_none_iff.2 hshows, fun m hm => ?_⟩
          rcases within_iff.1 hm with rfl | ⟨c, hc, hm⟩
          · exact hshows
          · exact hclean c hc m hm
      | some d =>
        obtain ⟨before, c, after, rfl, hc, hbefore⟩ := List.findSome?_eq_some_iff.1 hfound
        obtain ⟨-, hfirst⟩ := Option.ite_none_right_eq_some.1 hc
        have hmem : c ∈ (node shape (before ++ c :: after)).children := by simp [children]
        rcases ih c (by simp) (hlisted.child hmem) (hmarked.child hmem) with
          ⟨hnone, -⟩ | ⟨p, m, hm, heq⟩
        · rw [hnone] at hfirst
          cases hfirst
        · refine .inr ⟨before.length :: p, m, hm.of_child (by simp [children])
            (by simpa using hmissing) ?_, ?_⟩
          · intro j hj e he
            rw [children, List.getElem?_append_left hj] at he
            have hmem := List.mem_of_getElem? he
            exact hpassed e (by simp [hmem]) (hbefore e hmem)
          · rw [Option.some_or, ← hfirst, heq]

theorem firstError_eq_none_iff (hlisted : n.ErrorsListed kindOf) (hmarked : n.Marked kindOf) :
    n.firstError source = none ↔ ∀ m, Within m n → ¬ m.ShowsError kindOf := by
  rcases firstError_cases source hlisted hmarked with ⟨hnone, hclean⟩ | ⟨p, m, hfirst, heq⟩
  · exact iff_of_true hnone hclean
  · rw [heq, ownError_eq_none_iff]
    exact iff_of_false (fun h => h hfirst.shows) fun h => h m ⟨p, hfirst.nodeAt⟩ hfirst.shows

/-- What is reported is said of a node of the tree that its parent lists as an error or that has been
put in, whatever is marked. -/
theorem exists_ownError (h : n.firstError source = some d) :
    ∃ m, Within m n ∧ m.ownError listedKind source = some d := by
  induction n using induct with
  | h shape cs ih =>
    have hself : Within (node shape cs) (node shape cs) := ⟨[], rfl⟩
    by_cases hmissing : (node shape cs).missing = true
    · exact ⟨_, hself, (firstError_of_missing hmissing).symm.trans h⟩
    · rw [firstError_of_not_missing hmissing .rfl, firstErrorAmong_eq, children,
        Option.or_eq_some_iff] at h
      rcases h with h | ⟨-, hown⟩
      · obtain ⟨c, hc, hfound⟩ := List.exists_of_findSome?_eq_some h
        obtain ⟨m, hm, hown⟩ := ih c hc (Option.ite_none_right_eq_some.1 hfound).2
        exact ⟨m, hm.trans (within_of_mem_children hc), hown⟩
      · exact ⟨_, hself, hown⟩

theorem exists_firstError (hlisted : n.ErrorsListed kindOf) (hmarked : n.Marked kindOf)
    (h : n.firstError source = some d) :
    ∃ p m, FirstError kindOf n p m ∧ m.ownError kindOf source = some d := by
  rcases firstError_cases source hlisted hmarked with ⟨hnone, -⟩ | ⟨p, m, hfirst, heq⟩
  · rw [hnone] at h
    cases h
  · exact ⟨p, m, hfirst, heq.symm.trans h⟩

/-! ## The first error from within -/

section Leaves

variable (hleaves : ∀ m, Within m n → m.missing = true → m.children = [])

include hleaves

/-- Nothing inside the first error shows an error if nothing is inside a token that has been put in. -/
theorem FirstError.inner_eq_nil (h : FirstError kindOf n p m) (hk : m.nodeAt? q = some k)
    (hshows : k.ShowsError kindOf) : q = [] := by
  cases hmissing : m.missing with
  | false => exact h.inner hmissing q k hk hshows
  | true =>
    cases q with
    | nil => rfl
    | cons i q =>
      obtain ⟨c, hc, -⟩ := nodeAt?_cons_eq_some_iff.1 hk
      rw [hleaves m ⟨p, h.nodeAt⟩ hmissing] at hc
      cases hc

theorem FirstError.eq_or_doneBefore (h : FirstError kindOf n p m) (hk : n.nodeAt? q = some k)
    (hshows : k.ShowsError kindOf) : q = p ∨ DoneBefore p q := by
  rcases h.before q k hk hshows with hle | ⟨hin, -⟩
  · by_cases hin : p <+: q
    · obtain ⟨r, rfl⟩ := hin
      rw [nodeAt?_append, h.nodeAt, Option.bind_some] at hk
      rw [h.inner_eq_nil hleaves hk hshows, List.append_nil]
      exact .inl rfl
    · rcases eq_or_lt_of_le hle with rfl | hlt
      · exact .inl rfl
      · exact .inr (.inr ⟨hlt, hin⟩)
  · by_cases heq : q = p
    · exact .inl heq
    · exact .inr (.inl ⟨hin, heq⟩)

/-- The search finds what a walk through the whole tree finds that visits each node after all inside
it. -/
theorem firstError_eq_findSome? (hlisted : n.ErrorsListed kindOf) (hmarked : n.Marked kindOf) :
    n.firstError source = n.placesInnerFirst.findSome? (errorAt kindOf source n) := by
  cases h : n.firstError source with
  | none =>
    have hclean := (firstError_eq_none_iff hlisted hmarked).1 h
    refine (List.findSome?_eq_none_iff.2 fun p _ => ?_).symm
    by_contra hne
    obtain ⟨m, hm, hshows⟩ := errorAt_ne_none_iff.1 hne
    exact hclean m ⟨p, hm⟩ hshows
  | some d =>
    obtain ⟨p, m, hfirst, hown⟩ := exists_firstError hlisted hmarked h
    refine (findSome?_placesInnerFirst (mem_placesInnerFirst.2 ⟨m, hfirst.nodeAt⟩) ?_ ?_).symm
    · rw [errorAt, hfirst.nodeAt, Option.bind_some, hown]
    · intro q _ hne
      obtain ⟨k, hk, hshows⟩ := errorAt_ne_none_iff.1 hne
      exact hfirst.eq_or_doneBefore hleaves hk hshows

end Leaves

end Node

/-! ## What a refused program is told -/

/-- The first letter of a message. -/
def Complaint.initial : Complaint → Char
  | missing _ | missingParentheses _ => 'm'
  | unexpected _ => 'u'
  | invalid => 'i'
  | expectedBlock => 'e'

theorem Complaint.head?_message (complaint : Complaint) :
    complaint.message.toList.head? = some complaint.initial := by
  have hfirst {a : String} {c : Char} (ha : a.toList.head? = some c) (b : String) :
      (a ++ b).toList.head? = some c := by
    rw [String.toList_append, List.head?_append, ha, Option.some_or]
  cases complaint with
  | missing kind => exact hfirst (hfirst rfl _) _
  | unexpected snippet => exact hfirst (hfirst rfl _) _
  | invalid => rfl
  | missingParentheses keyword => exact hfirst (hfirst rfl _) _
  | expectedBlock => rfl

theorem Complaint.initial_eq_of_message {a b : Complaint} (h : a.message = b.message) :
    a.initial = b.initial :=
  Option.some.inj (a.head?_message.symm.trans ((congrArg (·.toList.head?) h).trans b.head?_message))

theorem Complaint.message_eq_invalid_iff (complaint : Complaint) :
    complaint.message = "invalid syntax" ↔ complaint = .invalid := by
  refine ⟨fun h => ?_, fun h => h ▸ rfl⟩
  have hinitial := initial_eq_of_message (b := .invalid) h
  cases complaint with
  | invalid => rfl
  | missing | unexpected | missingParentheses | expectedBlock => cases hinitial

theorem Complaint.message_eq_expectedBlock_iff (complaint : Complaint) :
    complaint.message = "expected an indented block" ↔ complaint = .expectedBlock := by
  refine ⟨fun h => ?_, fun h => h ▸ rfl⟩
  have hinitial := initial_eq_of_message (b := .expectedBlock) h
  cases complaint with
  | expectedBlock => rfl
  | missing | unexpected | invalid | missingParentheses => cases hinitial

theorem Diagnostic.Names.complaint_ne_invalid {d : Diagnostic} {source : Source} {n : Node}
    (h : d.Names source n) : d.complaint ≠ .invalid := by
  rw [Names] at h
  intro hinvalid
  split at h <;> rw [h] at hinvalid <;> cases hinvalid

namespace Tree

section Parse

variable {grammar : Grammar} {settings : ParsingSettings} {source : Source} {root : Node}
  {d : Diagnostic}

theorem fault_of_parse (h : grammar source = some root)
    (hparse : parse grammar settings source = .error (.syntaxError d)) :
    fault source root = some (.syntaxError d) := by
  rw [parse_eq h] at hparse
  split at hparse
  · cases hparse
  · split at hparse
    · cases hparse
    · split at hparse
      · rename_i failure hfault
        rw [hfault, Except.error.inj hparse]
      · cases hparse

/-- A program that is called invalid has a marked tree in which no node shows an error, and the other
way round. -/
theorem message_eq_invalid_iff_of_fault {kindOf : Node → Kind} (hlisted : root.ErrorsListed kindOf)
    (hmarked : root.Marked kindOf) (h : fault source root = some (.syntaxError d)) :
    d.message = "invalid syntax" ↔
      root.hasError = true ∧ ∀ m, Node.Within m root → ¬ m.ShowsError kindOf := by
  rw [Diagnostic.message, Complaint.message_eq_invalid_iff]
  cases hmark : root.hasError with
  | false =>
    obtain ⟨p, m, -, hnames, -⟩ := names_of_fault hmark h
    simp [hnames.complaint_ne_invalid]
  | true =>
    rw [fault, if_pos hmark, Option.some.injEq, Failure.syntaxError.injEq] at h
    have hnone : root.firstError source = none ↔
        ∀ m, Node.Within m root → ¬ m.ShowsError kindOf :=
      Node.firstError_eq_none_iff hlisted hmarked
    rw [← hnone, ← h, and_iff_right rfl]
    cases hfirst : root.firstError source with
    | none => simp [Diagnostic.atNode]
    | some e =>
      obtain ⟨p, m, -, hown⟩ := Node.exists_firstError hlisted hmarked hfirst
      obtain ⟨complaint, rfl, hcomplaint⟩ := Node.atNode_of_ownError hown
      simp [Diagnostic.atNode, hcomplaint]

end Parse

end Tree

/-! ## The search finds every error that is listed as one -/

namespace Node

/-- What the search does if it loses nothing. `kindOf` says which kind of a node counts. -/
structure LosesNothing (kindOf : Node → Kind) (source : Source) (root : Node) : Prop where
  /-- The search finds what a walk through the whole tree finds that visits the children of a node one
  after another and then the node. -/
  firstError_eq : root.firstError source =
    root.placesInnerFirst.findSome? (errorAt kindOf source root)
  firstError_eq_none : root.firstError source = none ↔
    ∀ m, Within m root → ¬ m.ShowsError kindOf
  /-- A program refused for its syntax is called invalid exactly if its tree is marked and no node shows
  an error. -/
  invalid : ∀ grammar settings d, grammar source = some root →
    Tree.parse grammar settings source = .error (.syntaxError d) →
    (d.message = "invalid syntax" ↔
      root.hasError = true ∧ ∀ m, Within m root → ¬ m.ShowsError kindOf)
  /-- Nothing inside an error reported shows another one. -/
  innermost : ∀ d, root.firstError source = some d → ∃ p m, root.nodeAt? p = some m ∧
    m.ownError kindOf source = some d ∧
    ∀ q k, m.nodeAt? q = some k → k.ShowsError kindOf → q = []

theorem losesNothing {kindOf : Node → Kind} {root : Node} (source : Source)
    (hleaves : ∀ m, Within m root → m.missing = true → m.children = [])
    (hlisted : root.ErrorsListed kindOf) (hmarked : root.Marked kindOf) :
    LosesNothing kindOf source root where
  firstError_eq := firstError_eq_findSome? hleaves hlisted hmarked
  firstError_eq_none := firstError_eq_none_iff hlisted hmarked
  invalid _ _ _ hroot hparse :=
    Tree.message_eq_invalid_iff_of_fault hlisted hmarked (Tree.fault_of_parse hroot hparse)
  innermost _ hd := by
    obtain ⟨p, m, hfirst, hown⟩ := exists_firstError hlisted hmarked hd
    exact ⟨p, m, hfirst.nodeAt, hown, fun q k => hfirst.inner_eq_nil hleaves⟩

/-- In a tree marked at least where errors are, with nothing inside the tokens that have been put in,
the search loses nothing that is listed as an error. So it loses no error in a tree whose errors are all
listed as such. -/
theorem firstError_exhaustive (source : Source) {root : Node}
    (hleaves : ∀ m, Within m root → m.missing = true → m.children = []) :
    (root.Marked listedKind → LosesNothing listedKind source root) ∧
    (root.ErrorsListed kind → root.Marked kind → LosesNothing kind source root) :=
  ⟨losesNothing source hleaves root.errorsListed_listedKind, losesNothing source hleaves⟩

end Node

/-- The tree of a program whose first line is a stray sign: it is part of an error that goes on to the
next line and holds another one. -/
def strayMark : Tree where
  source := .ofText "@\ndef f(): pass\n"
  root :=
    let word (text : String) (start stop : Position) : Node :=
      .node { kind := .other text, named := false, start, stop } []
    let inner (kind : Kind) (start stop : Position) (hasError : Bool) (children : List Node) : Node :=
      .node { kind, named := true, start, stop, hasError } children
    inner (.other "module") ⟨0, 0, 0⟩ ⟨16, 2, 0⟩ true
      [inner .error ⟨0, 0, 0⟩ ⟨10, 1, 8⟩ true
        [word "@" ⟨0, 0, 0⟩ ⟨1, 0, 1⟩,
          inner .call ⟨2, 1, 0⟩ ⟨9, 1, 7⟩ true
            [inner .identifier ⟨2, 1, 0⟩ ⟨5, 1, 3⟩ false [],
              inner .error ⟨6, 1, 4⟩ ⟨7, 1, 5⟩ true
                [inner .identifier ⟨6, 1, 4⟩ ⟨7, 1, 5⟩ false []],
              inner (.other "argument_list") ⟨7, 1, 5⟩ ⟨9, 1, 7⟩ false
                [word "(" ⟨7, 1, 5⟩ ⟨8, 1, 6⟩, word ")" ⟨8, 1, 6⟩ ⟨9, 1, 7⟩]],
          word ":" ⟨9, 1, 7⟩ ⟨10, 1, 8⟩],
        inner (.other "pass_statement") ⟨11, 1, 9⟩ ⟨15, 1, 13⟩ false
          [word "pass" ⟨11, 1, 9⟩ ⟨15, 1, 13⟩]]

theorem marked_strayMark : strayMark.root.Marked Node.kind := by
  have hmarks : ∀ m ∈ strayMark.root.preorder, ∀ k ∈ m.preorder, k.ShowsError Node.kind →
      m.hasError = true := by decide
  simp only [Node.mem_preorder] at hmarks
  exact hmarks

theorem errorsListed_strayMark : strayMark.root.ErrorsListed Node.kind := by
  have hlisted : ∀ m ∈ strayMark.root.preorder,
      (m.kind = .error ↔ m.listedKind = .error) := by decide
  simp only [Node.mem_preorder] at hlisted
  exact hlisted

theorem firstError_strayMark :
    strayMark.root.firstError strayMark.source = some ⟨.unexpected "f", 2, 5⟩ := by
  decide +kernel

theorem firstError_exhaustive_strayMark :
    (∀ m, Node.Within m strayMark.root → m.missing = true → m.children = []) ∧
    strayMark.root.ErrorsListed Node.kind ∧ strayMark.root.Marked Node.kind ∧
    strayMark.root.placesInnerFirst.findSome?
        (Node.errorAt Node.kind strayMark.source strayMark.root) =
      some ⟨.unexpected "f", 2, 5⟩ := by
  have hleaves : ∀ m ∈ strayMark.root.preorder, m.missing = true → m.children = [] := by decide
  simp only [Node.mem_preorder] at hleaves
  refine ⟨hleaves, errorsListed_strayMark, marked_strayMark, ?_⟩
  have hsearch := (Node.firstError_exhaustive strayMark.source hleaves).2 errorsListed_strayMark
    marked_strayMark
  rw [← hsearch.firstError_eq]
  exact firstError_strayMark

/-- The tree of `if x: a; ) b`. The body stands on the line of the header, so the sign that fits nowhere
is listed as a block. -/
def strayInLine : Tree where
  source := .ofText "if x: a; ) b\n"
  root :=
    let word (text : String) (start stop : Nat) : Node :=
      .node { kind := .other text, named := false,
              start := ⟨start, 0, start⟩, stop := ⟨stop, 0, stop⟩ } []
    let name (field : Option Field) (start stop : Nat) : Node :=
      .node { kind := .identifier, named := true, field,
              start := ⟨start, 0, start⟩, stop := ⟨stop, 0, stop⟩ } []
    let statement (start stop : Nat) : Node :=
      .node { kind := .other "expression_statement", named := true,
              start := ⟨start, 0, start⟩, stop := ⟨stop, 0, stop⟩ } [name none start stop]
    let broken (kind listedKind : Kind) (field : Option Field) (start stop : Position)
        (children : List Node) : Node :=
      .node { kind, named := true, listedKind, field, start, stop, hasError := true } children
    broken (.other "module") (.other "module") none ⟨0, 0, 0⟩ ⟨13, 1, 0⟩
      [broken (.other "if_statement") (.other "if_statement") none ⟨0, 0, 0⟩ ⟨12, 0, 12⟩
        [word "if" 0 2, name (some (.other "condition")) 3 4, word ":" 4 5,
          broken .block .block (some (.other "consequence")) ⟨6, 0, 6⟩ ⟨12, 0, 12⟩
            [statement 6 7, word ";" 7 8,
              broken .error .block none ⟨9, 0, 9⟩ ⟨10, 0, 10⟩ [word ")" 9 10],
              statement 11 12]]]

/-- The tree is marked where its one error is and holds no token that has been put in. The walk through
the whole tree finds the error, but the search finds nothing, and the program is called invalid without
further reason. -/
theorem error_listed_as_block_lost : strayInLine.root.Marked Node.kind ∧
    (∀ m, Node.Within m strayInLine.root → m.missing = false) ∧
    strayInLine.root.placesInnerFirst.findSome?
        (Node.errorAt Node.kind strayInLine.source strayInLine.root) =
      some ⟨.unexpected ")", 1, 10⟩ ∧
    strayInLine.root.firstError strayInLine.source = none ∧
    Tree.parse (fun _ => some strayInLine.root) {} strayInLine.source =
      .error (.syntaxError ⟨.invalid, 1, 1⟩) := by
  have hmarks : ∀ m ∈ strayInLine.root.preorder, ∀ k ∈ m.preorder, k.ShowsError Node.kind →
      m.hasError = true := by decide
  have hmissing : ∀ m ∈ strayInLine.root.preorder, m.missing = false := by decide
  have hsize : ¬ strayInLine.source.size > ({} : ParsingSettings).maxFileSize := by decide
  have hrefusal : strayInLine.refusal {} = some (.syntaxError ⟨.invalid, 1, 1⟩) := by
    decide +kernel
  simp only [Node.mem_preorder] at hmarks hmissing
  refine ⟨hmarks, hmissing, by decide +kernel, by decide +kernel, ?_⟩
  rw [Tree.parse, if_neg hsize]
  dsimp only
  rw [hrefusal]

end CallAtlas.Syntax
