import CallAtlas.Proofs.Syntax.Place

/-!
# Places from within

A walk may also visit each node after all that is inside it. It goes through the same places as the walk
that visits each node first, and those that do not hold each other come in the same order.
-/

namespace CallAtlas.Syntax

/-- A walk that visits each node after all inside it visits one place before another one. -/
def DoneBefore (p q : Place) : Prop := q <+: p ∧ q ≠ p ∨ p < q ∧ ¬ p <+: q

theorem DoneBefore.asymm {p q : Place} (hpq : DoneBefore p q) : ¬ DoneBefore q p := by
  intro hqp
  rcases hpq with ⟨hin, hne⟩ | ⟨hlt, hout⟩
  · rcases hqp with ⟨hin', -⟩ | ⟨-, hout'⟩
    · exact hne (hin.eq_of_length_le hin'.length_le)
    · exact hout' hin
  · rcases hqp with ⟨hin', -⟩ | ⟨hlt', -⟩
    · exact hout hin'
    · exact lt_asymm hlt hlt'

theorem DoneBefore.cons {p q : Place} (h : DoneBefore p q) (i : Nat) :
    DoneBefore (i :: p) (i :: q) := by
  rcases h with ⟨hin, hne⟩ | ⟨hlt, hout⟩
  · exact .inl ⟨(List.prefix_cons_inj i).2 hin, fun heq => hne (List.cons.inj heq).2⟩
  · exact .inr ⟨List.cons_lt_cons_iff.2 (.inr ⟨rfl, hlt⟩), fun hin =>
      hout ((List.prefix_cons_inj i).1 hin)⟩

theorem doneBefore_of_lt {i j : Nat} (h : i < j) (p q : Place) :
    DoneBefore (i :: p) (j :: q) := by
  refine .inr ⟨List.cons_lt_cons_iff.2 (.inl h), fun hin => ?_⟩
  obtain ⟨rfl, -⟩ := List.cons_prefix_cons.1 hin
  exact Nat.lt_irrefl i h

namespace Node

mutual

/-- The places of a tree, each after those inside it. -/
def placesInnerFirst : Node → List Place
  | node _ children => placesInnerFirstAmong 0 children ++ [[]]

/-- The places of some trees that are the children of a node from a number on, each after those inside
it. -/
def placesInnerFirstAmong (i : Nat) : List Node → List Place
  | [] => []
  | n :: rest => n.placesInnerFirst.map (i :: ·) ++ placesInnerFirstAmong (i + 1) rest

end

theorem placesInnerFirstAmong_perm {cs : List Node}
    (h : ∀ c ∈ cs, c.placesInnerFirst.Perm c.places) (i : Nat) :
    (placesInnerFirstAmong i cs).Perm (placesAmong i cs) := by
  induction cs generalizing i with
  | nil => exact .nil
  | cons n rest ih =>
    rw [placesInnerFirstAmong, placesAmong]
    exact ((h n (by simp)).map _).append (ih (fun c hc => h c (by simp [hc])) (i + 1))

/-- The walk from within goes through all places of the tree. -/
theorem placesInnerFirst_perm (n : Node) : n.placesInnerFirst.Perm n.places := by
  induction n using induct with
  | h shape children ih =>
    rw [placesInnerFirst, places]
    exact List.perm_append_comm.trans ((placesInnerFirstAmong_perm ih 0).cons [])

theorem mem_placesInnerFirst {n : Node} {p : Place} :
    p ∈ n.placesInnerFirst ↔ ∃ m, n.nodeAt? p = some m := by
  rw [n.placesInnerFirst_perm.mem_iff, mem_places]

theorem exists_cons_of_mem_placesInnerFirstAmong {i : Nat} {cs : List Node} {p : Place}
    (h : p ∈ placesInnerFirstAmong i cs) : ∃ j q, i ≤ j ∧ p = j :: q := by
  have hperm := placesInnerFirstAmong_perm (fun c (_ : c ∈ cs) => c.placesInnerFirst_perm) i
  obtain ⟨k, c, q, -, rfl, -⟩ := mem_placesAmong.1 (hperm.mem_iff.1 h)
  exact ⟨i + k, q, Nat.le_add_right i k, rfl⟩

theorem placesInnerFirstAmong_ordered {cs : List Node}
    (h : ∀ c ∈ cs, c.placesInnerFirst.Pairwise DoneBefore) (i : Nat) :
    (placesInnerFirstAmong i cs).Pairwise DoneBefore := by
  induction cs generalizing i with
  | nil => exact .nil
  | cons n rest ih =>
    rw [placesInnerFirstAmong, List.pairwise_append]
    refine ⟨?_, ih (fun c hc => h c (by simp [hc])) (i + 1), ?_⟩
    · rw [List.pairwise_map]
      exact (h n (by simp)).imp fun hpq => hpq.cons i
    · intro p hp q hq
      obtain ⟨p, -, rfl⟩ := List.mem_map.1 hp
      obtain ⟨j, q, hj, rfl⟩ := exists_cons_of_mem_placesInnerFirstAmong hq
      exact doneBefore_of_lt (by omega) p q

theorem placesInnerFirst_ordered (n : Node) : n.placesInnerFirst.Pairwise DoneBefore := by
  induction n using induct with
  | h shape children ih =>
    -- the empty place of the node itself comes after all others
    rw [placesInnerFirst, List.pairwise_append]
    refine ⟨placesInnerFirstAmong_ordered ih 0, List.pairwise_singleton _ _, ?_⟩
    intro p hp q hq
    obtain rfl := List.mem_singleton.1 hq
    obtain ⟨j, r, -, rfl⟩ := exists_cons_of_mem_placesInnerFirstAmong hp
    exact .inl ⟨List.nil_prefix, (List.cons_ne_nil j r).symm⟩

/-- The walk from within finds what is at a place if there is nothing to find at any place that it
visits before. -/
theorem findSome?_placesInnerFirst {α : Type} {f : Place → Option α} {n : Node} {p : Place} {a : α}
    (hp : p ∈ n.placesInnerFirst) (ha : f p = some a)
    (hfirst : ∀ q ∈ n.placesInnerFirst, f q ≠ none → q = p ∨ DoneBefore p q) :
    n.placesInnerFirst.findSome? f = some a := by
  have hne : n.placesInnerFirst.findSome? f ≠ none := by
    intro hnone
    rw [List.findSome?_eq_none_iff.1 hnone p hp] at ha
    cases ha
  obtain ⟨b, hb⟩ := Option.ne_none_iff_exists'.1 hne
  obtain ⟨q, hq, hfq, hbefore⟩ := findSome?_first n.placesInnerFirst_ordered hb
  obtain rfl : q = p := by
    refine (hfirst q hq (by simp [hfq])).resolve_right fun hpq => ?_
    rcases hbefore p hp (by simp [ha]) with rfl | hqp
    · exact hpq.asymm hpq
    · exact hpq.asymm hqp
  rw [hb, ← hfq, ha]

end Node

end CallAtlas.Syntax
