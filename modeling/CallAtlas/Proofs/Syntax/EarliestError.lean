import CallAtlas.Proofs.Syntax.Errors
import Mathlib.Data.Prod.Lex

/-!
# The earliest error

In a tree in the order of the text the error that the search finds begins no later than any other one
that is listed as an error, except that texts around it that fit nowhere may begin before it. So it is
the earliest one if every error is listed as such and no text that fits nowhere holds another error, but
not in every tree.
-/

namespace CallAtlas

namespace Text.Position

/-- The line and the column, in the order in which a text is read. -/
def point (x : Position) : ℕ ×ₗ ℕ := toLex (x.row, x.column)

theorem point_le_iff (x y : Position) :
    x.point ≤ y.point ↔ x.row < y.row ∨ x.row = y.row ∧ x.column ≤ y.column :=
  Prod.Lex.toLex_le_toLex

end Text.Position

namespace Syntax

open Text

/-- The diagnostic points at a position or at one before it. -/
def Diagnostic.NotAfter (d : Diagnostic) (x : Position) : Prop :=
  d.line < x.line ∨ d.line = x.line ∧ d.column ≤ x.column + 1

instance (d : Diagnostic) (x : Position) : Decidable (d.NotAfter x) :=
  inferInstanceAs (Decidable (d.line < x.line ∨ d.line = x.line ∧ d.column ≤ x.column + 1))

theorem Diagnostic.atNode_notAfter_iff (n : Node) (complaint : Complaint) (x : Position) :
    (atNode n complaint).NotAfter x ↔ n.start.point ≤ x.point := by
  rw [Position.point_le_iff, NotAfter, atNode, Position.line]
  simp only
  omega

namespace Node

variable {kindOf : Node → Kind} {source : Source} {root m k : Node} {p q : Place} {d : Diagnostic}

/-- A text that fits nowhere holds the node at a place, which is not the text itself. `kindOf` says which
kind of a node counts. -/
def StrayAround (kindOf : Node → Kind) (root : Node) (q p : Place) : Prop :=
  q <+: p ∧ q ≠ p ∧ ∃ k, root.nodeAt? q = some k ∧ kindOf k = .error

/-- Some error is reported. The diagnostic points at the beginning of a node that shows it, and only texts
around this node that fit nowhere may begin before it. So it is the earliest error if no text that fits
nowhere holds another one. -/
def EarliestButAround (kindOf : Node → Kind) (source : Source) (root : Node) : Prop :=
  ∃ d, root.firstError source = some d ∧
    (∃ p m, root.nodeAt? p = some m ∧ m.ownError kindOf source = some d ∧
      ∀ q k, root.nodeAt? q = some k → k.ShowsError kindOf →
        d.NotAfter k.start ∨ root.StrayAround kindOf q p) ∧
    ((∀ p m, root.nodeAt? p = some m → m.ShowsError kindOf → ∀ q, ¬ root.StrayAround kindOf q p) →
      ∀ k, Within k root → k.ShowsError kindOf → d.NotAfter k.start)

theorem FirstError.start_le_or_strayAround (h : FirstError kindOf root p m)
    (horder : root.OrderedBy Position.point) (hk : root.nodeAt? q = some k)
    (hshows : k.ShowsError kindOf) :
    m.start.point ≤ k.start.point ∨ root.StrayAround kindOf q p := by
  rcases h.before q k hk hshows with hle | ⟨hin, hmissing⟩
  · exact .inl (horder.start_mono h.nodeAt hk hle)
  · by_cases heq : q = p
    · subst heq
      exact .inl (horder.start_mono h.nodeAt hk le_rfl)
    · have herror := hshows.resolve_left (by simp [hmissing])
      exact .inr ⟨hin, heq, k, hk, herror⟩

theorem earliestButAround (source : Source) (horder : root.OrderedBy Position.point)
    (hlisted : root.ErrorsListed kindOf) (hmarked : root.Marked kindOf)
    (hshows : ∃ m, Within m root ∧ m.ShowsError kindOf) : EarliestButAround kindOf source root := by
  obtain ⟨d, hd⟩ : ∃ d, root.firstError source = some d := by
    refine Option.ne_none_iff_exists'.1 fun hnone => ?_
    obtain ⟨m, hm, hmshows⟩ := hshows
    exact (firstError_eq_none_iff hlisted hmarked).1 hnone m hm hmshows
  obtain ⟨p, m, hfirst, hown⟩ := exists_firstError hlisted hmarked hd
  obtain ⟨complaint, rfl, -⟩ := atNode_of_ownError hown
  have hnear : ∀ q k, root.nodeAt? q = some k → k.ShowsError kindOf →
      (Diagnostic.atNode m complaint).NotAfter k.start ∨ root.StrayAround kindOf q p := by
    intro q k hk hkshows
    rw [Diagnostic.atNode_notAfter_iff]
    exact hfirst.start_le_or_strayAround horder hk hkshows
  refine ⟨_, hd, ⟨p, m, hfirst.nodeAt, hown, hnear⟩, fun hapart k hk hkshows => ?_⟩
  obtain ⟨q, hq⟩ := hk
  exact (hnear q k hq hkshows).resolve_right (hapart p m hfirst.nodeAt hfirst.shows q)

/-- In a tree in the order of the text, marked at least where errors are, the error reported is the
earliest one that is listed as an error but for texts around it. In a tree whose errors are all listed as
such it is the earliest error but for texts around it. -/
theorem firstError_earliest_but_around (source : Source) (horder : root.OrderedBy Position.point) :
    (root.Marked listedKind → (∃ m, Within m root ∧ m.ShowsError listedKind) →
      EarliestButAround listedKind source root) ∧
    (root.ErrorsListed kind → root.Marked kind → (∃ m, Within m root ∧ m.ShowsError kind) →
      EarliestButAround kind source root) :=
  ⟨earliestButAround source horder root.errorsListed_listedKind, earliestButAround source horder⟩

theorem orderedBy_strayMark : strayMark.root.OrderedBy Position.point := by
  have horder : ∀ m ∈ strayMark.root.preorder, m.start.point ≤ m.stop.point ∧
      (∀ c ∈ m.children, m.start.point ≤ c.start.point ∧ c.stop.point ≤ m.stop.point) ∧
      m.children.Pairwise fun c d => c.stop.point ≤ d.start.point := by
    simp only [Position.point_le_iff]
    decide
  simp only [mem_preorder] at horder
  exact ⟨fun m hm => (horder m hm).1, fun m hm => (horder m hm).2.1, fun m hm => (horder m hm).2.2⟩

theorem firstError_earliest_but_around_strayMark : strayMark.root.OrderedBy Position.point ∧
    strayMark.root.ErrorsListed kind ∧ strayMark.root.Marked kind ∧
    (∃ m, Within m strayMark.root ∧ m.ShowsError kind) ∧
    EarliestButAround kind strayMark.source strayMark.root := by
  have hshows : ∃ m, Within m strayMark.root ∧ m.ShowsError kind := by
    refine ⟨_, ⟨[0], rfl⟩, ?_⟩
    decide
  exact ⟨orderedBy_strayMark, errorsListed_strayMark, marked_strayMark, hshows,
    (firstError_earliest_but_around strayMark.source orderedBy_strayMark).2 errorsListed_strayMark
      marked_strayMark hshows⟩

/-- An error that holds another one is not reported, though it begins on an earlier line. -/
theorem inner_error_reported : strayMark.root.ErrorsListed kind ∧ strayMark.root.Marked kind ∧
    strayMark.root.OrderedBy Position.point ∧
    strayMark.root.firstError strayMark.source = some ⟨.unexpected "f", 2, 5⟩ ∧
    ∃ k, Within k strayMark.root ∧ k.ShowsError kind ∧ k.start = .origin ∧
      ¬ Diagnostic.NotAfter ⟨.unexpected "f", 2, 5⟩ k.start := by
  refine ⟨errorsListed_strayMark, marked_strayMark, orderedBy_strayMark, firstError_strayMark, _,
    ⟨[0], rfl⟩, ?_⟩
  decide

end Node

end Syntax

end CallAtlas
