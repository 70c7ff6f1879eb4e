import CallAtlas.Syntax.Node
import Mathlib.Data.List.Basic
import Mathlib.Data.List.Lex
import Mathlib.Order.Bounds.Defs
import Mathlib.Order.Defs.LinearOrder

/-!
# Places in syntax trees

A node is known by its place, since equal nodes may stand at several places. In the order of places,
which is that of words in a dictionary, each node stands before the nodes inside it, and these before
the nodes that follow it in the text. A walk through a tree visits the places in this order.
-/

namespace CallAtlas.Syntax

/-- The way from the root of a tree to a node: the number of the child to go to, step by step. -/
abbrev Place := List Nat

/-- The first element of an ordered list to give something is before all others that do. -/
theorem findSome?_first {α β : Type} {r : α → α → Prop} {l : List α} (h : l.Pairwise r)
    {f : α → Option β} {b : β} (hb : l.findSome? f = some b) :
    ∃ a ∈ l, f a = some b ∧ ∀ c ∈ l, f c ≠ none → a = c ∨ r a c := by
  obtain ⟨before, a, after, rfl, ha, hbefore⟩ := List.findSome?_eq_some_iff.1 hb
  refine ⟨a, by simp, ha, fun c hc hfc => ?_⟩
  rcases List.mem_append.1 hc with hc | hc
  · exact absurd (hbefore c hc) hfc
  · rcases List.mem_cons.1 hc with rfl | hc
    · exact .inl rfl
    · exact .inr ((List.pairwise_cons.1 (List.pairwise_append.1 h).2.1).1 c hc)

namespace Node

/-- The node at a place. -/
def nodeAt? (n : Node) : Place → Option Node
  | [] => some n
  | i :: p => n.children[i]?.bind (·.nodeAt? p)

/-- The nodes around a place, from the root inwards. -/
def above (n : Node) (p : Place) : List Node :=
  (List.range p.length).filterMap fun k => n.nodeAt? (p.take k)

/-- A node stands somewhere in a tree, perhaps as its root. -/
def Within (m n : Node) : Prop := ∃ p, n.nodeAt? p = some m

mutual

/-- The places of a tree, each before those inside it. -/
def places : Node → List Place
  | node _ children => [] :: placesAmong 0 children

/-- The places of some trees that are the children of a node from a number on. -/
def placesAmong (i : Nat) : List Node → List Place
  | [] => []
  | n :: rest => n.places.map (i :: ·) ++ placesAmong (i + 1) rest

end

/-- What holds of a node if it holds of all its children holds of all nodes. -/
theorem induct {motive : Node → Prop}
    (h : ∀ shape children, (∀ c ∈ children, motive c) → motive (node shape children)) :
    ∀ n, motive n
  | node shape children => h shape children fun c _ => induct h c

/-! ## Going down -/

theorem nodeAt?_nil (n : Node) : n.nodeAt? [] = some n := rfl

theorem nodeAt?_cons {n c : Node} {i : Nat} (h : n.children[i]? = some c) (p : Place) :
    n.nodeAt? (i :: p) = c.nodeAt? p := by
  rw [nodeAt?, h, Option.bind_some]

theorem nodeAt?_cons_eq_some_iff {n m : Node} {i : Nat} {p : Place} :
    n.nodeAt? (i :: p) = some m ↔ ∃ c, n.children[i]? = some c ∧ c.nodeAt? p = some m := by
  rw [nodeAt?, Option.bind_eq_some_iff]

theorem nodeAt?_append (n : Node) (p q : Place) :
    n.nodeAt? (p ++ q) = (n.nodeAt? p).bind (·.nodeAt? q) := by
  induction p generalizing n with
  | nil => rfl
  | cons i p ih =>
    rw [List.cons_append, nodeAt?, nodeAt?]
    cases n.children[i]? with
    | none => rfl
    | some c => exact ih c

theorem nodeAt?_of_append {n m : Node} {p q : Place} (h : n.nodeAt? (p ++ q) = some m) :
    ∃ k, n.nodeAt? p = some k := by
  rw [nodeAt?_append, Option.bind_eq_some_iff] at h
  obtain ⟨k, hk, -⟩ := h
  exact ⟨k, hk⟩

theorem above_nil (n : Node) : n.above [] = [] := rfl

theorem above_cons {n c : Node} {i : Nat} (h : n.children[i]? = some c) (p : Place) :
    n.above (i :: p) = n :: c.above p := by
  rw [above, above, List.length_cons, List.range_succ_eq_map, List.filterMap_cons,
    List.take_zero, nodeAt?_nil, List.filterMap_map]
  simp only [Function.comp_def, List.take_succ_cons, nodeAt?_cons h]

theorem above_concat (n : Node) (p : Place) (i : Nat) :
    n.above (p ++ [i]) = n.above p ++ (n.nodeAt? p).toList := by
  rw [above, above, List.length_append, List.length_singleton, List.range_succ,
    List.filterMap_append]
  congr 1
  · refine List.filterMap_congr fun k hk => ?_
    rw [List.take_append_of_le_length (Nat.le_of_lt (List.mem_range.1 hk))]
  · rw [List.filterMap_cons, List.take_left, List.filterMap_nil]
    cases n.nodeAt? p <;> rfl

theorem within_iff {m n : Node} : Within m n ↔ m = n ∨ ∃ c ∈ n.children, Within m c := by
  constructor
  · rintro ⟨p, hp⟩
    cases p with
    | nil => exact .inl (Option.some.inj hp).symm
    | cons i p =>
      obtain ⟨c, hc, hm⟩ := nodeAt?_cons_eq_some_iff.1 hp
      exact .inr ⟨c, List.mem_of_getElem? hc, p, hm⟩
  · rintro (rfl | ⟨c, hc, p, hp⟩)
    · exact ⟨[], rfl⟩
    · obtain ⟨i, hi⟩ := List.mem_iff_getElem?.1 hc
      exact ⟨i :: p, by rw [nodeAt?_cons hi, hp]⟩

/-! ## All places of a tree -/

theorem places_eq (n : Node) : n.places = [] :: placesAmong 0 n.children := by
  cases n
  rw [places, children]

theorem mem_placesAmong {i : Nat} {cs : List Node} {p : Place} :
    p ∈ placesAmong i cs ↔ ∃ k c q, cs[k]? = some c ∧ p = (i + k) :: q ∧ q ∈ c.places := by
  induction cs generalizing i with
  | nil => simp [placesAmong]
  | cons n rest ih =>
    rw [placesAmong, List.mem_append, List.mem_map, ih]
    constructor
    · rintro (⟨q, hq, rfl⟩ | ⟨k, c, q, hc, rfl, hq⟩)
      · exact ⟨0, n, q, rfl, rfl, hq⟩
      · exact ⟨k + 1, c, q, hc, by rw [Nat.add_right_comm, Nat.add_assoc], hq⟩
    · rintro ⟨_ | k, c, q, hc, rfl, hq⟩
      · cases hc
        exact .inl ⟨q, hq, rfl⟩
      · exact .inr ⟨k, c, q, hc, by rw [Nat.add_right_comm, Nat.add_assoc], hq⟩

theorem mem_places {n : Node} {p : Place} : p ∈ n.places ↔ ∃ m, n.nodeAt? p = some m := by
  induction p generalizing n with
  | nil => simp [places_eq, nodeAt?_nil]
  | cons i p ih =>
    rw [places_eq, List.mem_cons, or_iff_right (List.cons_ne_nil i p), mem_placesAmong]
    simp only [nodeAt?_cons_eq_some_iff, Nat.zero_add, List.cons.injEq]
    constructor
    · rintro ⟨k, c, q, hc, ⟨rfl, rfl⟩, hq⟩
      obtain ⟨m, hm⟩ := ih.1 hq
      exact ⟨m, c, hc, hm⟩
    · rintro ⟨m, c, hc, hm⟩
      exact ⟨i, c, p, hc, ⟨rfl, rfl⟩, ih.2 ⟨m, hm⟩⟩

theorem placesAmong_ascending {cs : List Node} (h : ∀ c ∈ cs, c.places.Pairwise (· < ·)) (i : Nat) :
    (placesAmong i cs).Pairwise (· < ·) := by
  induction cs generalizing i with
  | nil => exact .nil
  | cons n rest ih =>
    rw [placesAmong, List.pairwise_append]
    refine ⟨?_, ih (fun c hc => h c (by simp [hc])) (i + 1), ?_⟩
    · rw [List.pairwise_map]
      refine (h n (by simp)).imp fun hpq => ?_
      exact List.cons_lt_cons_iff.2 (.inr ⟨rfl, hpq⟩)
    · intro p hp q hq
      obtain ⟨p, -, rfl⟩ := List.mem_map.1 hp
      obtain ⟨k, c, q, -, rfl, -⟩ := mem_placesAmong.1 hq
      exact List.cons_lt_cons_iff.2 (.inl (by omega))

theorem places_ascending (n : Node) : n.places.Pairwise (· < ·) := by
  induction n using induct with
  | h shape children ih =>
    -- the empty place of the node itself comes before all others
    rw [places, List.pairwise_cons]
    refine ⟨?_, placesAmong_ascending ih 0⟩
    intro p hp
    obtain ⟨k, c, q, -, rfl, -⟩ := mem_placesAmong.1 hp
    exact List.nil_lt_cons _ _

/-! ## Walks -/

variable {α : Type}

theorem flatMap_placesAmong {f : Place → List α} {g : Node → Place → List α} {cs : List Node}
    {i : Nat} (h : ∀ k c, cs[k]? = some c → ∀ p, f ((i + k) :: p) = g c p) :
    (placesAmong i cs).flatMap f = cs.flatMap fun c => c.places.flatMap (g c) := by
  induction cs generalizing i with
  | nil => rfl
  | cons n rest ih =>
    have hfirst : ∀ p, f (i :: p) = g n p := h 0 n rfl
    rw [placesAmong, List.flatMap_append, List.flatMap_map, List.flatMap_cons]
    congr 1
    · exact List.flatMap_congr fun p _ => hfirst p
    · refine ih fun k c hc p => ?_
      rw [Nat.add_right_comm, Nat.add_assoc]
      exact h (k + 1) c hc p

/-- A walk that does something at every place does it at the root and then in one child after
another. -/
theorem flatMap_places {f : Place → List α} {g : Node → Place → List α} {n : Node}
    (h : ∀ i c, n.children[i]? = some c → ∀ p, f (i :: p) = g c p) :
    n.places.flatMap f = f [] ++ n.children.flatMap fun c => c.places.flatMap (g c) := by
  rw [places_eq, List.flatMap_cons, flatMap_placesAmong]
  intro k c hc p
  rw [Nat.zero_add]
  exact h k c hc p

/-- A walk that finds something at some places finds it at the root and then in one child after
another. -/
theorem filterMap_places {f : Place → Option α} {g : Node → Place → Option α} {n : Node}
    (h : ∀ i c, n.children[i]? = some c → ∀ p, f (i :: p) = g c p) :
    n.places.filterMap f =
      (f []).toList ++ n.children.flatMap fun c => c.places.filterMap (g c) := by
  simp only [List.filterMap_eq_flatMap_toList]
  refine flatMap_places fun i c hc p => ?_
  rw [h i c hc p]

/-- The first thing that a walk finds is at the least of the places where there is something to find. -/
theorem findSome?_places_eq_some_iff {f : Place → Option α} {n : Node} {a : α}
    (hf : ∀ p, f p ≠ none → p ∈ n.places) :
    n.places.findSome? f = some a ↔ ∃ p, f p = some a ∧ IsLeast {q | f q ≠ none} p := by
  constructor
  · intro h
    obtain ⟨p, -, hp, hfirst⟩ := findSome?_first n.places_ascending h
    refine ⟨p, hp, Option.ne_none_iff_exists'.2 ⟨a, hp⟩, fun q hq => ?_⟩
    exact (hfirst q (hf q hq) hq).elim le_of_eq le_of_lt
  · rintro ⟨p, hp, hleast⟩
    have hne : n.places.findSome? f ≠ none := by
      intro hnone
      rw [List.findSome?_eq_none_iff.1 hnone p (hf p hleast.1)] at hp
      cases hp
    obtain ⟨b, hb⟩ := Option.ne_none_iff_exists'.1 hne
    obtain ⟨q, -, hq, hfirst⟩ := findSome?_first n.places_ascending hb
    -- of two least places neither is before the other
    obtain rfl : q = p := by
      refine le_antisymm ?_ (hleast.2 (Option.ne_none_iff_exists'.2 ⟨b, hq⟩))
      exact (hfirst p (hf p hleast.1) hleast.1).elim le_of_eq le_of_lt
    rw [hb, ← hq, hp]

end Node

end CallAtlas.Syntax
