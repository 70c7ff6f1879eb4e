import CallAtlas.Proofs.Syntax.LastToken

/-!
# Trees in the order of the text

In a tree in the order of the text the nodes lie in their parents, one after another. So they begin in
the order of their places, of two nodes that do not hold each other one ends before the other begins,
and of the tokens outside comments the last one ends last. Positions are compared by their bytes, or by
any other key that puts them in an order.
-/

namespace CallAtlas.Syntax.Node

open Text

theorem Within.trans {k m n : Node} (hkm : Within k m) (hmn : Within m n) : Within k n := by
  obtain ⟨p, hp⟩ := hkm
  obtain ⟨q, hq⟩ := hmn
  exact ⟨q ++ p, by rw [nodeAt?_append, hq, Option.bind_some, hp]⟩

theorem within_of_mem_children {c n : Node} (h : c ∈ n.children) : Within c n := by
  obtain ⟨i, hi⟩ := List.mem_iff_getElem?.1 h
  exact ⟨[i], by rw [nodeAt?_cons hi, nodeAt?_nil]⟩

theorem mem_preorderAll {cs : List Node} {m : Node}
    (h : ∀ c ∈ cs, m ∈ c.preorder ↔ Within m c) :
    m ∈ preorderAll cs ↔ ∃ c ∈ cs, Within m c := by
  induction cs with
  | nil => simp [preorderAll]
  | cons c cs ih =>
    rw [preorderAll, List.mem_append, h c (by simp), ih fun d hd => h d (by simp [hd]),
      List.exists_mem_cons_iff]

theorem mem_preorder (n m : Node) : m ∈ n.preorder ↔ Within m n := by
  induction n using induct with
  | h shape cs ih => rw [preorder, List.mem_cons, within_iff, mem_preorderAll ih, children]

section Key

variable {α : Type} [Preorder α] {key : Position → α} {root n m : Node} {p q : Place}

/-- If no node begins before its parent, no node begins before one that holds it. -/
theorem start_le_of_within
    (h : ∀ m, Within m n → ∀ c ∈ m.children, key m.start ≤ key c.start) (hm : Within m n) :
    key n.start ≤ key m.start := by
  obtain ⟨p, hp⟩ := hm
  induction p generalizing n with
  | nil => rw [Option.some.inj hp]
  | cons i p ih =>
    obtain ⟨c, hc, hm⟩ := nodeAt?_cons_eq_some_iff.1 hp
    have hmem : c ∈ n.children := List.mem_of_getElem? hc
    refine (h n ⟨[], rfl⟩ c hmem).trans (ih (fun k hk => ?_) hm)
    exact h k (hk.trans (within_of_mem_children hmem))

/-- With positions compared by a key, each node ends where it begins or later, holds its children, and
has them one after another. -/
structure OrderedBy (key : Position → α) (root : Node) : Prop where
  spans : ∀ m, Within m root → key m.start ≤ key m.stop
  holds : ∀ m, Within m root → ∀ c ∈ m.children,
    key m.start ≤ key c.start ∧ key c.stop ≤ key m.stop
  apart : ∀ m, Within m root → m.children.Pairwise fun c d => key c.stop ≤ key d.start

namespace OrderedBy

theorem of_within (h : root.OrderedBy key) (hn : Within n root) : n.OrderedBy key where
  spans m hm := h.spans m (hm.trans hn)
  holds m hm := h.holds m (hm.trans hn)
  apart m hm := h.apart m (hm.trans hn)

theorem start_le (h : root.OrderedBy key) (hm : Within m root) : key root.start ≤ key m.start :=
  start_le_of_within (fun k hk c hc => (h.holds k hk c hc).1) hm

theorem stop_le (h : root.OrderedBy key) (hm : Within m root) : key m.stop ≤ key root.stop := by
  obtain ⟨p, hp⟩ := hm
  induction p generalizing root with
  | nil => rw [Option.some.inj hp]
  | cons i p ih =>
    obtain ⟨c, hc, hm⟩ := nodeAt?_cons_eq_some_iff.1 hp
    have hmem : c ∈ root.children := List.mem_of_getElem? hc
    exact (ih (h.of_within (within_of_mem_children hmem)) hm).trans
      (h.holds root ⟨[], rfl⟩ c hmem).2

/-- A node that does not hold a later one ends before that one begins. -/
theorem stop_le_start (h : root.OrderedBy key) (hn : root.nodeAt? p = some n)
    (hm : root.nodeAt? q = some m) (hpq : p < q) (hout : ¬ p <+: q) :
    key n.stop ≤ key m.start := by
  induction p generalizing root q with
  | nil => exact absurd List.nil_prefix hout
  | cons i p ih =>
    cases q with
    | nil => exact absurd hpq (List.not_lt_nil _)
    | cons j q =>
      obtain ⟨c, hc, hn⟩ := nodeAt?_cons_eq_some_iff.1 hn
      obtain ⟨d, hd, hm⟩ := nodeAt?_cons_eq_some_iff.1 hm
      have hcmem := within_of_mem_children (List.mem_of_getElem? hc)
      have hdmem := within_of_mem_children (List.mem_of_getElem? hd)
      rcases List.cons_lt_cons_iff.1 hpq with hij | ⟨rfl, hlt⟩
      · have hapart : key c.stop ≤ key d.start := by
          obtain ⟨hi, rfl⟩ := List.getElem?_eq_some_iff.1 hc
          obtain ⟨hj, rfl⟩ := List.getElem?_eq_some_iff.1 hd
          exact List.pairwise_iff_getElem.1 (h.apart root ⟨[], rfl⟩) i j hi hj hij
        have hstop := (h.of_within hcmem).stop_le ⟨p, hn⟩
        have hstart := (h.of_within hdmem).start_le ⟨q, hm⟩
        exact (hstop.trans hapart).trans hstart
      · obtain rfl := Option.some.inj (hc.symm.trans hd)
        exact ih (h.of_within hcmem) hn hm hlt fun hprefix =>
          hout ((List.prefix_cons_inj i).2 hprefix)

theorem start_le_of_prefix (h : root.OrderedBy key) (hn : root.nodeAt? p = some n)
    (hm : root.nodeAt? q = some m) (hpq : p <+: q) : key n.start ≤ key m.start := by
  obtain ⟨r, rfl⟩ := hpq
  rw [nodeAt?_append, hn, Option.bind_some] at hm
  exact (h.of_within ⟨p, hn⟩).start_le ⟨r, hm⟩

/-- Nodes begin in the order of their places. -/
theorem start_mono (h : root.OrderedBy key) (hn : root.nodeAt? p = some n)
    (hm : root.nodeAt? q = some m) (hpq : p ≤ q) : key n.start ≤ key m.start := by
  by_cases hprefix : p <+: q
  · exact h.start_le_of_prefix hn hm hprefix
  · have hlt : p < q := lt_of_le_of_ne hpq fun heq => hprefix (heq ▸ List.prefix_refl p)
    exact (h.spans n ⟨p, hn⟩).trans (h.stop_le_start hn hm hlt hprefix)

end OrderedBy

end Key

/-! ## The order of the bytes -/

/-- Each node ends where it begins or later, holds its children, and has them one after another. -/
structure InOrder (root : Node) : Prop where
  spans : ∀ m, Within m root → m.start.byte ≤ m.stop.byte
  holds : ∀ m, Within m root → ∀ c ∈ m.children,
    m.start.byte ≤ c.start.byte ∧ c.stop.byte ≤ m.stop.byte
  apart : ∀ m, Within m root → m.children.Pairwise fun c d => c.stop.byte ≤ d.start.byte

namespace InOrder

variable {root n m : Node} {p q : Place}

theorem orderedBy (h : root.InOrder) : root.OrderedBy Position.byte := ⟨h.spans, h.holds, h.apart⟩

theorem of_within (h : root.InOrder) (hn : Within n root) : n.InOrder := by
  obtain ⟨hspans, hholds, hapart⟩ := h.orderedBy.of_within hn
  exact ⟨hspans, hholds, hapart⟩

theorem start_le (h : root.InOrder) (hm : Within m root) : root.start.byte ≤ m.start.byte :=
  h.orderedBy.start_le hm

theorem stop_le (h : root.InOrder) (hm : Within m root) : m.stop.byte ≤ root.stop.byte :=
  h.orderedBy.stop_le hm

theorem stop_le_start (h : root.InOrder) (hn : root.nodeAt? p = some n)
    (hm : root.nodeAt? q = some m) (hpq : p < q) (hout : ¬ p <+: q) :
    n.stop.byte ≤ m.start.byte :=
  h.orderedBy.stop_le_start hn hm hpq hout

theorem start_le_of_prefix (h : root.InOrder) (hn : root.nodeAt? p = some n)
    (hm : root.nodeAt? q = some m) (hpq : p <+: q) : n.start.byte ≤ m.start.byte :=
  h.orderedBy.start_le_of_prefix hn hm hpq

theorem start_mono (h : root.InOrder) (hn : root.nodeAt? p = some n)
    (hm : root.nodeAt? q = some m) (hpq : p ≤ q) : n.start.byte ≤ m.start.byte :=
  h.orderedBy.start_mono hn hm hpq

/-- Nothing outside comments with nothing below but comments ends after the last token. -/
theorem stop_le_lastCodeToken (h : root.InOrder) (hm : root.nodeAt? q = some m)
    (hout : root.OutsideComments q) (hleaf : ∀ c ∈ m.children, c.listedKind = .comment) :
    m.stop.byte ≤ root.lastCodeToken.stop.byte := by
  obtain ⟨p, hp, houtp, -, hgreatest⟩ := root.exists_place_lastCodeToken
  have hqp : q ≤ p := hgreatest q m hm hout
  by_cases hprefix : q <+: p
  · obtain ⟨r, rfl⟩ := hprefix
    cases r with
    | nil =>
      rw [List.append_nil] at hp
      rw [Option.some.inj (hm.symm.trans hp)]
    | cons i r =>
      -- the last token would lie in a comment below
      rw [nodeAt?_append, hm, Option.bind_some] at hp
      obtain ⟨c, hc, -⟩ := nodeAt?_cons_eq_some_iff.1 hp
      have hcode := ((outsideComments_cons hc).1 ((outsideComments_append hm).1 houtp).2).1
      exact absurd (hleaf c (List.mem_of_getElem? hc)) hcode
  · have hlt : q < p := lt_of_le_of_ne hqp fun heq => hprefix (heq ▸ List.prefix_refl q)
    exact (h.stop_le_start hm hp hlt hprefix).trans (h.spans _ ⟨p, hp⟩)

end InOrder

end CallAtlas.Syntax.Node
