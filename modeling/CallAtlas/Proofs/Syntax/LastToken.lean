import CallAtlas.Proofs.Syntax.Place
import CallAtlas.Syntax.Construct

/-!
# The last token outside comments

The search for the last token of a node goes down, at each step into the last child that is not listed
as a comment. Of all places outside comments it ends at the greatest one, the last in the order of the
text.
-/

namespace CallAtlas.Syntax.Node

/-- No node on the way to a place is listed as a comment, nor is the node at the place. -/
def OutsideComments (n : Node) (p : Place) : Prop :=
  ∀ q m, q <+: p → q ≠ [] → n.nodeAt? q = some m → m.listedKind ≠ .comment

variable {n m c : Node} {p q : Place} {i : Nat}

theorem outsideComments_nil (n : Node) : n.OutsideComments [] :=
  fun _ _ hq hne => absurd (List.prefix_nil.1 hq) hne

theorem OutsideComments.of_prefix (h : n.OutsideComments q) (hpq : p <+: q) :
    n.OutsideComments p :=
  fun r m hr => h r m (hr.trans hpq)

theorem outsideComments_cons (h : n.children[i]? = some c) :
    n.OutsideComments (i :: p) ↔ c.listedKind ≠ .comment ∧ c.OutsideComments p := by
  constructor
  · intro hout
    refine ⟨hout [i] c (List.prefix_append [i] p) (List.cons_ne_nil i []) ?_, fun q m hq _ hm => ?_⟩
    · rw [nodeAt?_cons h, nodeAt?_nil]
    · refine hout (i :: q) m ((List.prefix_cons_inj i).2 hq) (List.cons_ne_nil i q) ?_
      rw [nodeAt?_cons h, hm]
  · rintro ⟨hc, hp⟩ q m hq hne hm
    obtain ⟨r, rfl, hr⟩ := (List.prefix_cons_iff.1 hq).resolve_left hne
    rw [nodeAt?_cons h] at hm
    rcases eq_or_ne r [] with rfl | hr'
    · rwa [← Option.some.inj hm]
    · exact hp r m hr hr' hm

theorem outsideComments_append (h : n.nodeAt? p = some m) :
    n.OutsideComments (p ++ q) ↔ n.OutsideComments p ∧ m.OutsideComments q := by
  induction p generalizing n with
  | nil =>
    obtain rfl := Option.some.inj h
    exact (and_iff_right (outsideComments_nil n)).symm
  | cons i p ih =>
    obtain ⟨c, hc, hm⟩ := nodeAt?_cons_eq_some_iff.1 h
    rw [List.cons_append, outsideComments_cons hc, outsideComments_cons hc, ih hm, and_assoc]

/-! ## The way down -/

/-- Among some nodes the search chooses the last one that is not listed as a comment. -/
theorem lastCodeTokenAmong_cases (fallback : Node) (cs : List Node) :
    ((∀ c ∈ cs, c.listedKind = .comment) ∧ lastCodeTokenAmong fallback cs = fallback) ∨
    ∃ (i : Nat) (c : Node), cs[i]? = some c ∧ c.listedKind ≠ .comment ∧
      (∀ (j : Nat) (d : Node), i < j → cs[j]? = some d → d.listedKind = .comment) ∧
      lastCodeTokenAmong fallback cs = c.lastCodeToken := by
  induction cs with
  | nil => exact .inl ⟨nofun, rfl⟩
  | cons c cs ih =>
    rw [lastCodeTokenAmong]
    split
    · rename_i hlast
      simp only [Bool.and_eq_true, bne_iff_ne, List.all_eq_true, beq_iff_eq] at hlast
      refine .inr ⟨0, c, rfl, hlast.1, fun j d hj hd => ?_, rfl⟩
      obtain ⟨j, rfl⟩ := Nat.exists_eq_succ_of_ne_zero (Nat.ne_of_gt hj)
      exact hlast.2 d (List.mem_of_getElem? hd)
    · rename_i hother
      rcases ih with ⟨hall, hfallback⟩ | ⟨i, d, hd, hcode, hafter, htoken⟩
      · refine .inl ⟨fun d hd => ?_, hfallback⟩
        rcases List.mem_cons.1 hd with rfl | hd
        · by_contra hcode
          refine hother ?_
          simp only [Bool.and_eq_true, bne_iff_ne, List.all_eq_true, beq_iff_eq]
          exact ⟨hcode, hall⟩
        · exact hall d hd
      · refine .inr ⟨i + 1, d, hd, hcode, fun j e hj he => ?_, htoken⟩
        obtain ⟨j, rfl⟩ := Nat.exists_eq_succ_of_ne_zero (Nat.ne_of_gt (Nat.zero_lt_of_lt hj))
        exact hafter j e (Nat.lt_of_succ_lt_succ hj) he

/-- The search ends at a node without children other than comments, and goes on below any other one
with the last of them. -/
theorem lastCodeToken_cases (n : Node) :
    ((∀ c ∈ n.children, c.listedKind = .comment) ∧ n.lastCodeToken = n) ∨
    ∃ (i : Nat) (c : Node), n.children[i]? = some c ∧ c.listedKind ≠ .comment ∧
      (∀ (j : Nat) (d : Node), i < j → n.children[j]? = some d → d.listedKind = .comment) ∧
      n.lastCodeToken = c.lastCodeToken := by
  obtain ⟨shape, cs⟩ := n
  rw [lastCodeToken]
  exact lastCodeTokenAmong_cases _ cs

/-- The place of the last token: outside comments, with nothing below but comments, and not before any
other place outside comments. -/
theorem exists_place_lastCodeToken (n : Node) : ∃ p, n.nodeAt? p = some n.lastCodeToken ∧
    n.OutsideComments p ∧ (∀ c ∈ n.lastCodeToken.children, c.listedKind = .comment) ∧
    ∀ q m, n.nodeAt? q = some m → n.OutsideComments q → q ≤ p := by
  induction n using induct with
  | h shape cs ih =>
    rcases lastCodeToken_cases (node shape cs) with
      ⟨hall, htoken⟩ | ⟨i, c, hc, hcode, hafter, htoken⟩
    · rw [htoken]
      refine ⟨[], rfl, outsideComments_nil _, hall, fun q m hm hq => ?_⟩
      cases q with
      | nil => exact le_rfl
      | cons j q =>
        -- a place below would lie in a comment
        obtain ⟨d, hd, -⟩ := nodeAt?_cons_eq_some_iff.1 hm
        exact absurd (hall d (List.mem_of_getElem? hd)) ((outsideComments_cons hd).1 hq).1
    · obtain ⟨p, hp, hout, hleaf, hgreatest⟩ := ih c (List.mem_of_getElem? hc)
      rw [htoken]
      refine ⟨i :: p, by rw [nodeAt?_cons hc, hp], (outsideComments_cons hc).2 ⟨hcode, hout⟩, hleaf,
        fun q m hm hq => ?_⟩
      cases q with
      | nil => exact le_of_lt (List.nil_lt_cons i p)
      | cons j q =>
        obtain ⟨d, hd, hm⟩ := nodeAt?_cons_eq_some_iff.1 hm
        obtain ⟨hd', hq⟩ := (outsideComments_cons hd).1 hq
        rcases Nat.lt_trichotomy j i with hji | rfl | hij
        · exact le_of_lt (List.cons_lt_cons_iff.2 (.inl hji))
        · obtain rfl := Option.some.inj (hc.symm.trans hd)
          rcases eq_or_lt_of_le (hgreatest q m hm hq) with rfl | hlt
          · exact le_rfl
          · exact le_of_lt (List.cons_lt_cons_iff.2 (.inr ⟨rfl, hlt⟩))
        · exact absurd (hafter j d hij hd) hd'

theorem within_lastCodeToken (n : Node) : Within n.lastCodeToken n := by
  obtain ⟨p, hp, -⟩ := n.exists_place_lastCodeToken
  exact ⟨p, hp⟩

end CallAtlas.Syntax.Node
