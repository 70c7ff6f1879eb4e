import CallAtlas.Proofs.Agreement
import CallAtlas.Proofs.Extraction.Duplicates
import CallAtlas.Proofs.Syntax.InOrder
import Mathlib.Data.List.Nodup

/-!
# Ranges of lines

The ranges of lines of the records nest as the definitions do. The end of a range is that of the last
token outside comments, or the line before if the token ends at the beginning of a line. A definition
that holds another one has the later last token; where both tokens end at the same place, both ranges
end on the same line, since neither definition begins there.
-/

namespace CallAtlas

open Syntax Text

/-- A position stands on an earlier line than another one, or before it on the same line. -/
def Text.Position.Before (x y : Position) : Prop :=
  x.row < y.row ∨ x.row = y.row ∧ x.column < y.column

instance (x y : Position) : Decidable (x.Before y) :=
  inferInstanceAs (Decidable (x.row < y.row ∨ x.row = y.row ∧ x.column < y.column))

namespace Syntax

theorem Node.above_append {root m : Node} {p : Place} (h : root.nodeAt? p = some m) (q : Place) :
    root.above (p ++ q) = root.above p ++ m.above q := by
  induction p generalizing root with
  | nil => rw [List.nil_append, Node.above_nil, List.nil_append, Option.some.inj h]
  | cons i p ih =>
    obtain ⟨c, hc, hm⟩ := Node.nodeAt?_cons_eq_some_iff.1 h
    rw [List.cons_append, Node.above_cons hc, Node.above_cons hc, ih hm, List.cons_append]

namespace Tree

/-- A node of the tree begins or ends at a position. -/
def Marks (t : Tree) (x : Position) : Prop :=
  ∃ m, Node.Within m t.root ∧ (x = m.start ∨ x = m.stop)

/-- The nodes lie in the order of the text, a position is further on in the bytes if it is so in lines
and columns, and each definition of a function has a token of its own that is not empty and belongs to
no comment. -/
structure WellPlaced (t : Tree) : Prop where
  inOrder : t.root.InOrder
  growing : ∀ x y, t.Marks x → t.Marks y → (x.byte < y.byte ↔ x.Before y)
  token : ∀ p name, t.Defines p name → ∃ q token, p <+: q ∧ t.root.nodeAt? q = some token ∧
    token.children = [] ∧ token.start.byte < token.stop.byte ∧ t.root.OutsideComments q

variable {t : Tree} {x y : Position} {m n : Node} {p q : Place}

theorem marks_start (h : Node.Within m t.root) : t.Marks m.start := ⟨m, h, .inl rfl⟩

theorem marks_stop (h : Node.Within m t.root) : t.Marks m.stop := ⟨m, h, .inr rfl⟩

namespace WellPlaced

theorem row_le (h : t.WellPlaced) (hx : t.Marks x) (hy : t.Marks y) (hxy : x.byte ≤ y.byte) :
    x.row < y.row ∨ x.row = y.row ∧ x.column ≤ y.column := by
  have hnot : ¬ y.Before x := fun hbefore => Nat.not_lt.2 hxy ((h.growing y x hy hx).2 hbefore)
  rw [Position.Before] at hnot
  omega

/-- The definition at a place has its token before the end of its last token. -/
theorem start_lt_stop (h : t.WellPlaced) {name : String} (hp : t.Defines p name)
    (hm : t.root.nodeAt? p = some m) : m.start.byte < m.lastCodeToken.stop.byte := by
  obtain ⟨_, token, ⟨r, rfl⟩, htoken, hleaf, hroom, hout⟩ := h.token p name hp
  rw [Node.nodeAt?_append, hm, Option.bind_some] at htoken
  have horder : m.InOrder := h.inOrder.of_within ⟨p, hm⟩
  have hstart := horder.start_le ⟨r, htoken⟩
  have hstop := horder.stop_le_lastCodeToken htoken ((Node.outsideComments_append hm).1 hout).2
    (by rw [hleaf]; exact nofun)
  omega

/-- The last token of an inner definition does not end after that of the outer one. -/
theorem stop_le_stop (h : t.WellPlaced) {name : String} (hq : t.Defines q name)
    (hm : t.root.nodeAt? p = some m) (hn : t.root.nodeAt? q = some n) (hpq : p <+: q) :
    m.lastCodeToken.stop.byte ≥ n.lastCodeToken.stop.byte := by
  obtain ⟨r, rfl⟩ := hpq
  obtain ⟨s, -, hqs, -, -, -, hout⟩ := h.token _ name hq
  rw [Node.nodeAt?_append, hm, Option.bind_some] at hn
  obtain ⟨k, hk, hinner, hleaf, -⟩ := n.exists_place_lastCodeToken
  -- the way from the outer definition to the last token of the inner one
  refine (h.inOrder.of_within ⟨p, hm⟩).stop_le_lastCodeToken (q := r ++ k) ?_ ?_ hleaf
  · rw [Node.nodeAt?_append, hn, Option.bind_some, hk]
  · rw [Node.outsideComments_append hn]
    exact ⟨((Node.outsideComments_append hm).1 (hout.of_prefix hqs)).2, hinner⟩

end WellPlaced

end Tree

end Syntax

namespace Extraction

variable {t : Tree} {m n : Node} {p q : Place} {name : String}

theorem startLine_le_startLine (h : t.WellPlaced) (hm : t.root.nodeAt? p = some m)
    (hn : t.root.nodeAt? q = some n) (hmn : m.start.byte ≤ n.start.byte) :
    m.start.line ≤ n.start.line := by
  have hrows := h.row_le (Tree.marks_start ⟨p, hm⟩) (Tree.marks_start ⟨q, hn⟩) hmn
  rw [Position.line, Position.line]
  omega

/-- The last row of an inner definition is not after that of the outer one. -/
theorem lastRow_le_lastRow (h : t.WellPlaced) (hm : t.root.nodeAt? p = some m)
    (hn : t.root.nodeAt? q = some n) (hq : t.Defines q name) (hpq : p <+: q) :
    lastRow n n.lastCodeToken ≤ lastRow m m.lastCodeToken := by
  have hmstop : t.Marks m.lastCodeToken.stop :=
    Tree.marks_stop (m.within_lastCodeToken.trans ⟨p, hm⟩)
  have hnstop : t.Marks n.lastCodeToken.stop :=
    Tree.marks_stop (n.within_lastCodeToken.trans ⟨q, hn⟩)
  have hnstart : t.Marks n.start := Tree.marks_start ⟨q, hn⟩
  have hstarts := h.row_le (Tree.marks_start ⟨p, hm⟩) hnstart
    (h.inOrder.start_le_of_prefix hm hn hpq)
  have hroom := (h.growing _ _ hnstart hnstop).1 (h.start_lt_stop hq hn)
  have hstops := h.row_le hnstop hmstop (h.stop_le_stop hq hm hn hpq)
  rw [Position.Before] at hroom
  simp only [lastRow, Bool.and_eq_true, decide_eq_true_eq]
  split <;> split <;> omega

/-- The last row of a definition is not after the first one of a definition behind it. -/
theorem lastRow_le_row (h : t.WellPlaced) (hm : t.root.nodeAt? p = some m)
    (hn : t.root.nodeAt? q = some n) (hpq : p < q) (hout : ¬ p <+: q) :
    lastRow m m.lastCodeToken ≤ n.start.row := by
  have hstop := (h.inOrder.of_within ⟨p, hm⟩).stop_le m.within_lastCodeToken
  have hrows := h.row_le (Tree.marks_stop (m.within_lastCodeToken.trans ⟨p, hm⟩))
    (Tree.marks_start ⟨q, hn⟩) (hstop.trans (h.inOrder.stop_le_start hm hn hpq hout))
  rw [lastRow]
  split <;> omega

/-! ## The definitions around a definition -/

theorem definesFunction_iff (m : Node) :
    m.definesFunction = true ↔ ∃ identifier isAsync, m.construct = .function identifier isAsync := by
  rw [Node.definesFunction]
  cases m.construct <;> simp

/-- The nodes around a place that define functions stand at the places of definitions above it. -/
theorem countP_above (t : Tree) (q : Place) :
    (t.root.above q).countP Node.definesFunction =
      (placesOfDefinitions t).countP fun p => p <+: q ∧ p ≠ q := by
  have hdefines : ∀ p, ((t.root.nodeAt? p).map Node.definesFunction).getD false = true ↔
      p ∈ placesOfDefinitions t := by
    intro p
    rw [mem_placesOfDefinitions]
    cases t.root.nodeAt? p with
    | none => simp
    | some m => simp [definesFunction_iff]
  -- both lists have the beginnings of the place that lead to a definition
  have hperm : (((List.range q.length).filter fun k =>
      ((t.root.nodeAt? (q.take k)).map Node.definesFunction).getD false).map fun k => q.take k).Perm
      ((placesOfDefinitions t).filter fun p => p <+: q ∧ p ≠ q) := by
    have hnodup : (placesOfDefinitions t).Nodup := (placesOfDefinitions_ascending t).imp ne_of_lt
    refine (List.perm_ext_iff_of_nodup ?_ (hnodup.filter _)).2 fun p => ?_
    · refine List.Nodup.map_on (fun k hk l hl hkl => ?_) (List.nodup_range.filter _)
      have hk := List.mem_range.1 (List.mem_filter.1 hk).1
      have hl := List.mem_range.1 (List.mem_filter.1 hl).1
      have hlength := congrArg List.length hkl
      rw [List.length_take, List.length_take] at hlength
      omega
    · simp only [List.mem_map, List.mem_filter, List.mem_range, hdefines, decide_eq_true_eq]
      constructor
      · rintro ⟨k, ⟨hk, hmem⟩, rfl⟩
        refine ⟨hmem, List.take_prefix k q, fun heq => ?_⟩
        have hlength := congrArg List.length heq
        rw [List.length_take] at hlength
        omega
      · rintro ⟨hmem, hpq, hne⟩
        have htake : q.take p.length = p := (List.prefix_iff_eq_take.1 hpq).symm
        refine ⟨p.length, ⟨?_, by rwa [htake]⟩, htake⟩
        exact lt_of_le_of_ne hpq.length_le fun heq => hne (hpq.eq_of_length heq)
  rw [Node.above, List.countP_filterMap, List.countP_eq_length_filter,
    List.countP_eq_length_filter, ← hperm.length_eq, List.length_map]

/-- There are more definitions around an inner definition. -/
theorem depth_lt_depth (hm : t.root.nodeAt? p = some m) (hn : t.root.nodeAt? q = some n)
    (hp : t.Defines p name) (hpq : p <+: q) (hne : p ≠ q) :
    (t.root.above p).countP Node.definesFunction <
      (t.root.above q).countP Node.definesFunction := by
  obtain ⟨r, rfl⟩ := hpq
  rw [Node.nodeAt?_append, hm, Option.bind_some] at hn
  cases r with
  | nil => exact absurd (List.append_nil p).symm hne
  | cons i r =>
    obtain ⟨c, hc, -⟩ := Node.nodeAt?_cons_eq_some_iff.1 hn
    obtain ⟨k, identifier, isAsync, hk, hconstruct, -⟩ := hp
    obtain rfl := Option.some.inj (hm.symm.trans hk)
    rw [Node.above_append hm, Node.above_cons hc, List.countP_append,
      List.countP_cons_of_pos ((definesFunction_iff m).2 ⟨identifier, isAsync, hconstruct⟩)]
    omega

/-! ## The records -/

/-- The ranges of the records of some definitions nest as the definitions do. The definitions are given
by their places in the order of the text. -/
structure RangesNest (places : List Place) (records : List FunctionRecord) : Prop where
  ascending : records.Pairwise fun r s => r.startLine ≤ s.startLine
  inner : ∀ p r q s, (p, r) ∈ places.zip records → (q, s) ∈ places.zip records → p <+: q → p ≠ q →
    r.startLine ≤ s.startLine ∧ s.endLine ≤ r.endLine ∧ r.depth < s.depth
  /-- The depth of a record is the number of the records with definitions around its own. -/
  depth : ∀ q s, (q, s) ∈ places.zip records →
    s.depth = (places.zip records).countP fun (p, _) => p <+: q ∧ p ≠ q
  apart : ∀ p r q s, (p, r) ∈ places.zip records → (q, s) ∈ places.zip records → p < q →
    ¬ p <+: q → r.endLine ≤ s.startLine

/-- A record of the program is that of the definition at its place. -/
theorem exists_of_mem_zip {r : FunctionRecord}
    (h : (p, r) ∈ (placesOfDefinitions t).zip ((definitions t).map (·.record))) :
    ∃ m identifier isAsync, t.root.nodeAt? p = some m ∧
      t.Defines p (identifier.text t.source) ∧ r = recordOf t.source m identifier isAsync
        ((t.root.above p).countP Node.definesFunction) := by
  rw [List.zip_map_right, List.mem_map] at h
  obtain ⟨⟨p', d⟩, hmem, heq⟩ := h
  obtain ⟨rfl, rfl⟩ := Prod.mk.inj heq
  obtain ⟨m, identifier, isAsync, hm, hc, rfl⟩ :=
    exists_of_definitionOf ((List.forall₂_iff_zip.1 (forall₂_definitions t)).2 hmem)
  exact ⟨m, identifier, isAsync, hm, ⟨m, identifier, isAsync, hm, hc, rfl⟩, rfl⟩

theorem rangesNest_definitions (h : t.WellPlaced) :
    RangesNest (placesOfDefinitions t) ((definitions t).map (·.record)) where
  ascending := by
    rw [List.pairwise_map, definitions_eq, List.pairwise_filterMap]
    refine t.root.places_ascending.imp fun hpq d hd e he => ?_
    obtain ⟨m, _, _, hm, -, rfl⟩ := exists_of_definitionOf hd
    obtain ⟨n, _, _, hn, -, rfl⟩ := exists_of_definitionOf he
    exact startLine_le_startLine h hm hn (h.inOrder.start_mono hm hn (le_of_lt hpq))
  inner p r q s hr hs hpq hne := by
    obtain ⟨m, _, _, hm, hp, rfl⟩ := exists_of_mem_zip hr
    obtain ⟨n, _, _, hn, hq, rfl⟩ := exists_of_mem_zip hs
    have hstart := startLine_le_startLine h hm hn (h.inOrder.start_le_of_prefix hm hn hpq)
    exact ⟨hstart, Nat.succ_le_succ (lastRow_le_lastRow h hm hn hq hpq),
      depth_lt_depth hm hn hp hpq hne⟩
  depth q s hs := by
    obtain ⟨n, _, _, -, -, rfl⟩ := exists_of_mem_zip hs
    have hlength := (List.forall₂_iff_zip.1 (forall₂_definitions t)).1
    have hplaces : (placesOfDefinitions t).countP (fun p => p <+: q ∧ p ≠ q) =
        ((placesOfDefinitions t).zip ((definitions t).map (·.record))).countP
          fun (p, _) => p <+: q ∧ p ≠ q := by
      have hfst : ((placesOfDefinitions t).zip ((definitions t).map (·.record))).map Prod.fst =
          placesOfDefinitions t :=
        List.map_fst_zip (le_of_eq (hlength.trans (List.length_map _).symm))
      conv_lhs => rw [← hfst, List.countP_map]
      rfl
    exact (countP_above t q).trans hplaces
  apart p r q s hr hs hpq hout := by
    obtain ⟨m, _, _, hm, -, rfl⟩ := exists_of_mem_zip hr
    obtain ⟨n, _, _, hn, -, rfl⟩ := exists_of_mem_zip hs
    exact Nat.succ_le_succ (lastRow_le_row h hm hn hpq hout)

/-- The ranges of the records nest like the definitions. In the order of the text the first lines never
decrease; a definition inside another one has its lines among those of the other one and is deeper, as
deep as there are definitions around it; and a definition behind another one begins on the last line of
the other one or later. -/
theorem ranges_nest (h : t.WellPlaced) (policy : DuplicatePolicy) :
    (policy ≠ .reject → ∃ e, ofTree policy t = .ok e) ∧
    ∀ e, ofTree policy t = .ok e → ∃ places : List Place, places.Pairwise (· < ·) ∧
      (∀ p, p ∈ places ↔ ∃ name, t.Defines p name) ∧
      List.Forall₂ (Records t) places e.functions ∧ RangesNest places e.functions :=
  ofTree_records (P := RangesNest) (rangesNest_definitions h) policy

theorem wellPlaced_decoratedProgram : decoratedProgram.WellPlaced where
  inOrder := by
    have hspans : ∀ m ∈ decoratedProgram.root.preorder, m.start.byte ≤ m.stop.byte ∧
        (∀ c ∈ m.children, m.start.byte ≤ c.start.byte ∧ c.stop.byte ≤ m.stop.byte) ∧
        m.children.Pairwise fun c d => c.stop.byte ≤ d.start.byte := by decide
    simp only [Node.mem_preorder] at hspans
    exact ⟨fun m hm => (hspans m hm).1, fun m hm => (hspans m hm).2.1, fun m hm => (hspans m hm).2.2⟩
  growing := by
    have hmarks : ∀ m ∈ decoratedProgram.root.preorder, ∀ n ∈ decoratedProgram.root.preorder,
        ∀ x ∈ [m.start, m.stop], ∀ y ∈ [n.start, n.stop], x.byte < y.byte ↔ x.Before y := by decide
    simp only [Node.mem_preorder] at hmarks
    rintro x y ⟨m, hm, hx⟩ ⟨n, hn, hy⟩
    exact hmarks m hm n hn x (by simpa using hx) y (by simpa using hy)
  token := by
    -- the names of the two functions are such tokens, and there are no comments
    have hplaces : placesOfDefinitions decoratedProgram = [[0, 1], [0, 1, 1, 0]] := by rfl
    have hcode : ∀ m ∈ decoratedProgram.root.preorder, m.listedKind ≠ .comment := by decide
    simp only [Node.mem_preorder] at hcode
    have hout (q : Place) : decoratedProgram.root.OutsideComments q :=
      fun r m _ _ hm => hcode m ⟨r, hm⟩
    intro p name hp
    have hmem : p ∈ placesOfDefinitions decoratedProgram :=
      mem_placesOfDefinitions.2 (exists_defines_iff.1 ⟨name, hp⟩)
    rw [hplaces, List.mem_cons, List.mem_singleton] at hmem
    rcases hmem with rfl | rfl
    · exact ⟨[0, 1, 0], _, ⟨[0], rfl⟩, rfl, rfl, by decide, hout _⟩
    · exact ⟨[0, 1, 1, 0, 0], _, ⟨[0], rfl⟩, rfl, rfl, by decide, hout _⟩

theorem ranges_nest_decoratedProgram : decoratedProgram.WellPlaced ∧
    ∃ e, ofTree .firstWins decoratedProgram = .ok e ∧
      RangesNest [[0, 1], [0, 1, 1, 0]] e.functions := by
  obtain ⟨hok, hranges⟩ := ranges_nest wellPlaced_decoratedProgram .firstWins
  obtain ⟨e, he⟩ := hok (by decide)
  obtain ⟨places, hascending, hplaces, -, hnest⟩ := hranges e he
  rw [eq_placesOfDefinitions hascending hplaces] at hnest
  exact ⟨wellPlaced_decoratedProgram, e, he, hnest⟩

end Extraction

end CallAtlas
