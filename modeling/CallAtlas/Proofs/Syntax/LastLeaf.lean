import CallAtlas.Proofs.Syntax.InOrder
import Mathlib.Data.PFun

/-!
# The last leaf outside comments

`without` takes all comments with what is inside them out of a tree, and `leaves` lists the leaves of a
tree in the order of the text. The search for the last token is a loop that goes down from child to
child and nothing bounds its turns. It ends at every node, and it ends at the last leaf of what is left
of the node without comments.

What counts as a comment is how the parent lists a node. In a body that is written on the line of its
header a comment is listed as a block, and the search takes it for the last token.
-/

namespace CallAtlas.Syntax.Node

mutual

/-- The node without the comments inside it. `isComment` says which nodes are comments. -/
def without (isComment : Node → Bool) : Node → Node
  | node shape children => node shape (withoutAmong isComment children)

/-- Some nodes without those that are comments and without the comments inside the others. -/
def withoutAmong (isComment : Node → Bool) : List Node → List Node
  | [] => []
  | n :: rest =>
    if isComment n then withoutAmong isComment rest
    else n.without isComment :: withoutAmong isComment rest

end

mutual

/-- The leaves of a tree, in the order of the text. -/
def leaves : Node → List Node
  | node shape [] => [node shape []]
  | node _ (first :: rest) => first.leaves ++ leavesAmong rest

/-- The leaves of some trees, in the order of the text. -/
def leavesAmong : List Node → List Node
  | [] => []
  | n :: rest => n.leaves ++ leavesAmong rest

end

/-- One turn of the search for the last token: it goes on with the last child that is not listed as a
comment, and ends where there is none. -/
def lastCodeTurn (n : Node) : Node ⊕ Node :=
  match n.children.reverse.find? (·.listedKind != .comment) with
  | some child => .inr child
  | none => .inl n

/-- Turns until the search ends, however many turns that takes. -/
def lastCodeLoop : Node →. Node := PFun.fix fun n => Part.some n.lastCodeTurn

/-- A place outside comments, at a node that has no children but comments. -/
def IsCodeLeaf (n : Node) (p : Place) : Prop :=
  n.OutsideComments p ∧ ∃ m, n.nodeAt? p = some m ∧ ∀ c ∈ m.children, c.listedKind = .comment

variable {n : Node} {isComment : Node → Bool}

/-! ## Trees without comments and their leaves -/

theorem withoutAmong_eq (isComment : Node → Bool) (cs : List Node) :
    withoutAmong isComment cs = (cs.filter (!isComment ·)).map (without isComment) := by
  induction cs with
  | nil => rfl
  | cons c cs ih =>
    by_cases hc : isComment c
    · rw [withoutAmong, if_pos hc, ih, List.filter_cons_of_neg (by simp [hc])]
    · rw [withoutAmong, if_neg hc, ih, List.filter_cons_of_pos (by simp [hc]), List.map_cons]

theorem children_without (isComment : Node → Bool) (n : Node) :
    (n.without isComment).children =
      (n.children.filter (!isComment ·)).map (without isComment) := by
  obtain ⟨shape, cs⟩ := n
  exact withoutAmong_eq isComment cs

theorem leavesAmong_eq (cs : List Node) : leavesAmong cs = cs.flatMap leaves := by
  induction cs with
  | nil => rfl
  | cons c cs ih => rw [leavesAmong, ih, List.flatMap_cons]

theorem leaves_of_no_children (h : n.children = []) : n.leaves = [n] := by
  obtain ⟨shape, cs⟩ := n
  obtain rfl : cs = [] := h
  rfl

theorem leaves_of_children (h : n.children ≠ []) : n.leaves = n.children.flatMap leaves := by
  obtain ⟨shape, _ | ⟨c, cs⟩⟩ := n
  · exact absurd rfl h
  · rw [leaves, leavesAmong_eq, children, List.flatMap_cons]

theorem leaves_ne_nil (n : Node) : n.leaves ≠ [] := by
  induction n using induct with
  | h shape cs ih =>
    cases cs with
    | nil => exact List.cons_ne_nil _ _
    | cons c cs =>
      rw [leaves]
      exact List.append_ne_nil_of_left_ne_nil (ih c (by simp)) _

/-- The last leaf of a node is that of its last child. -/
theorem getLast?_leaves {before : List Node} {c : Node} (h : n.children = before ++ [c]) :
    n.leaves.getLast? = c.leaves.getLast? := by
  obtain ⟨leaf, hleaf⟩ := Option.ne_none_iff_exists'.1
    (mt List.getLast?_eq_none_iff.1 c.leaves_ne_nil)
  rw [leaves_of_children (by simp [h]), h, List.flatMap_append, List.flatMap_singleton,
    List.getLast?_append, hleaf, Option.some_or]

/-! ## The loop -/

theorem lastCodeTokenAmong_eq (fallback : Node) (cs : List Node) :
    lastCodeTokenAmong fallback cs =
      match cs.reverse.find? (·.listedKind != .comment) with
      | some c => c.lastCodeToken
      | none => fallback := by
  induction cs with
  | nil => rfl
  | cons c cs ih =>
    rw [lastCodeTokenAmong, List.reverse_cons, List.find?_append]
    by_cases hrest : cs.all (·.listedKind == .comment)
    · have hnone : cs.reverse.find? (·.listedKind != .comment) = none := by
        simpa using hrest
      by_cases hc : c.listedKind = .comment
      · simp [hc, ih, hnone]
      · simp [hc, hrest, hnone]
    · obtain ⟨d, hd⟩ : ∃ d, cs.reverse.find? (·.listedKind != .comment) = some d := by
        refine Option.ne_none_iff_exists'.1 fun hnone => hrest ?_
        simpa using hnone
      rw [if_neg (by simp [hrest]), ih, hd, Option.some_or]

/-- The last token is where the turns lead. -/
theorem lastCodeToken_eq (n : Node) : n.lastCodeToken =
    match n.lastCodeTurn with
    | .inr child => child.lastCodeToken
    | .inl last => last := by
  obtain ⟨shape, cs⟩ := n
  rw [lastCodeToken, lastCodeTokenAmong_eq, lastCodeTurn, children]
  cases cs.reverse.find? (·.listedKind != .comment) <;> rfl

/-- A turn that does not end the search goes to the last of the children that are no comments. -/
theorem children_of_lastCodeTurn {c : Node} (h : n.lastCodeTurn = .inr c) :
    c ∈ n.children ∧
      ∃ before, n.children.filter (!·.listedKind == .comment) = before ++ [c] := by
  rw [lastCodeTurn] at h
  cases hfind : n.children.reverse.find? (·.listedKind != .comment) with
  | none => rw [hfind] at h; cases h
  | some d =>
    rw [hfind] at h
    obtain rfl := Sum.inr.inj h
    obtain ⟨hd, after, before, hsplit, hafter⟩ := List.find?_eq_some_iff_append.1 hfind
    have hchildren : n.children = before.reverse ++ d :: after.reverse := by
      rw [← n.children.reverse_reverse, hsplit]
      simp
    have hnone : after.reverse.filter (!·.listedKind == .comment) = [] := by
      simpa [List.filter_eq_nil_iff] using hafter
    refine ⟨by simp [hchildren], before.reverse.filter (!·.listedKind == .comment), ?_⟩
    rw [hchildren, List.filter_append, List.filter_cons_of_pos (by simpa using hd), hnone]

theorem children_of_lastCodeTurn_end {last : Node} (h : n.lastCodeTurn = .inl last) :
    last = n ∧ ∀ c ∈ n.children, c.listedKind = .comment := by
  rw [lastCodeTurn] at h
  cases hfind : n.children.reverse.find? (·.listedKind != .comment) with
  | some d => rw [hfind] at h; cases h
  | none =>
    rw [hfind] at h
    exact ⟨(Sum.inl.inj h).symm, by simpa using hfind⟩

/-- The loop ends at every node, with the last token. -/
theorem lastCodeLoop_eq (n : Node) : n.lastCodeLoop = Part.some n.lastCodeToken := by
  induction n using induct with
  | h shape cs ih =>
    have htoken := lastCodeToken_eq (node shape cs)
    cases hturn : (node shape cs).lastCodeTurn with
    | inl last =>
      rw [hturn] at htoken
      rw [htoken]
      exact Part.eq_some_iff.2 (PFun.fix_stop (by simp [hturn]))
    | inr c =>
      -- the loop goes on below `c` as it would have begun there
      rw [hturn] at htoken
      have hforward : (node shape cs).lastCodeLoop = c.lastCodeLoop :=
        PFun.fix_fwd_eq (by simp [hturn])
      rw [htoken, hforward, ih c (children_of_lastCodeTurn hturn).1]

/-! ## The last leaf -/

theorem getLast?_leaves_without (n : Node) :
    (n.without (·.listedKind == .comment)).leaves.getLast? =
      some (n.lastCodeToken.without (·.listedKind == .comment)) := by
  induction n using induct with
  | h shape cs ih =>
    have htoken := lastCodeToken_eq (node shape cs)
    have hchildren := children_without (·.listedKind == .comment) (node shape cs)
    cases hturn : (node shape cs).lastCodeTurn with
    | inl last =>
      rw [hturn] at htoken
      obtain ⟨rfl, hall⟩ := children_of_lastCodeTurn_end hturn
      have hnone : (node shape cs).children.filter (!·.listedKind == .comment) = [] := by
        simpa [List.filter_eq_nil_iff] using hall
      rw [hnone] at hchildren
      rw [htoken, leaves_of_no_children hchildren]
      rfl
    | inr c =>
      rw [hturn] at htoken
      obtain ⟨hc, before, hbefore⟩ := children_of_lastCodeTurn hturn
      rw [hbefore, List.map_append] at hchildren
      rw [htoken, getLast?_leaves hchildren, ih c hc]

/-- The place of the last token is the last one of all leaves outside comments. -/
theorem exists_isGreatest_lastCodeToken (n : Node) :
    ∃ p, n.nodeAt? p = some n.lastCodeToken ∧ IsGreatest {q | n.IsCodeLeaf q} p := by
  obtain ⟨p, hp, hout, hleaf, hgreatest⟩ := n.exists_place_lastCodeToken
  refine ⟨p, hp, ⟨hout, _, hp, hleaf⟩, ?_⟩
  rintro q ⟨hq, m, hm, -⟩
  exact hgreatest q m hm hq

/-- The search for the last token of a node ends, though nothing bounds its turns, and it ends at the
last leaf outside what is listed as a comment: the last leaf of the node without comments, which is the
node itself if nothing is left below it. In a tree in the order of the text no such leaf ends after
it. -/
theorem lastCodeToken_last_leaf (n : Node) :
    n.lastCodeLoop = Part.some n.lastCodeToken ∧
      (n.without (·.listedKind == .comment)).leaves.getLast? =
        some (n.lastCodeToken.without (·.listedKind == .comment)) ∧
      (∃ p, n.nodeAt? p = some n.lastCodeToken ∧ IsGreatest {q | n.IsCodeLeaf q} p) ∧
      ((n.without (·.listedKind == .comment)).children = [] → n.lastCodeToken = n) ∧
      (n.InOrder → ∀ q m, n.nodeAt? q = some m → n.IsCodeLeaf q →
        m.stop.byte ≤ n.lastCodeToken.stop.byte) := by
  refine ⟨n.lastCodeLoop_eq, n.getLast?_leaves_without, n.exists_isGreatest_lastCodeToken,
    fun hnone => ?_, ?_⟩
  · rcases lastCodeToken_cases n with ⟨-, htoken⟩ | ⟨i, c, hc, hcode, -, -⟩
    · exact htoken
    · rw [children_without, List.map_eq_nil_iff, List.filter_eq_nil_iff] at hnone
      exact absurd (hnone c (List.mem_of_getElem? hc)) (by simp [hcode])
  · rintro horder q m hm ⟨hout, k, hk, hleaf⟩
    obtain rfl := Option.some.inj (hm.symm.trans hk)
    exact horder.stop_le_lastCodeToken hm hout hleaf

/-! ## A comment taken for code -/

/-- The tree of `def f(): pass # c`. The body stands on the line of the header, so the comment is listed
as a block. -/
def lineWithComment : Node :=
  let token (kind : Kind) (named : Bool) (field : Option Field) (start stop : Nat) : Node :=
    .node { kind, named, field, start := ⟨start, 0, start⟩, stop := ⟨stop, 0, stop⟩ } []
  let inner (kind : Kind) (field : Option Field) (start stop : Nat) (children : List Node) : Node :=
    .node { kind, named := true, field, start := ⟨start, 0, start⟩, stop := ⟨stop, 0, stop⟩ } children
  inner .functionDefinition none 0 17
    [token (.other "def") false none 0 3, token .identifier true (some .name) 4 5,
      inner (.other "parameters") (some (.other "parameters")) 5 7
        [token (.other "(") false none 5 6, token (.other ")") false none 6 7],
      token (.other ":") false none 7 8,
      inner .block (some (.other "body")) 9 17
        [inner (.other "pass_statement") none 9 13 [token (.other "pass") false none 9 13],
          .node { kind := .comment, named := true, listedKind := .block, start := ⟨14, 0, 14⟩,
                  stop := ⟨17, 0, 17⟩ } []]]

/-- Without its comment the last leaf of the tree is the word `pass`, but the search ends at the
comment. -/
theorem comment_is_lastCodeToken :
    lineWithComment.lastCodeToken.kind = .comment ∧
      (lineWithComment.without (·.kind == .comment)).leaves.getLast?.map Node.kind =
        some (.other "pass") ∧
      (lineWithComment.without (·.kind == .comment)).leaves.getLast? ≠
        some (lineWithComment.lastCodeToken.without (·.kind == .comment)) := by
  refine ⟨rfl, rfl, fun h => ?_⟩
  have hkind := congrArg (Option.map Node.kind) h
  revert hkind
  decide

end CallAtlas.Syntax.Node
