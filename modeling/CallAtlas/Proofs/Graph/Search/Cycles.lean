import CallAtlas.Proofs.Graph.Search.Run

/-!
# The cycles of a call graph

The lists that the search reports are cycles of the graph, no two of them rotations of one another, and
every cycle of the graph goes through the closing call of one of them. In other words the closing calls
are a feedback set: without them the graph has no cycle.
-/

namespace CallAtlas.Graph

open Relation

/-- No element leads to itself. -/
def Acyclic {α : Type} (r : α → α → Prop) : Prop := ∀ a, ¬ TransGen r a a

theorem Acyclic.of_acc {α : Type} {r : α → α → Prop} (h : ∀ {a b}, r a b → Acc (Function.swap r) a) :
    Acyclic r := by
  intro a ha
  obtain ⟨b, hab⟩ : ∃ b, r a b := by
    cases TransGen.head'_iff.1 ha with
    | intro b hb => exact ⟨b, hb.1⟩
  have hloop : TransGen (Function.swap r) a a := transGen_swap.2 ha
  have hacc : Acc (TransGen (Function.swap r)) a := (h hab).transGen
  clear ha hab
  induction hacc with
  | intro a _ ih => exact ih a hloop hloop

theorem transGen_of_isChain {α : Type} {r : α → α → Prop} {a b : α} {w : List α}
    (h : (a :: w ++ [b]).IsChain r) : TransGen r a b := by
  induction w generalizing a with
  | nil =>
    have hab : r a b := by simpa using h
    exact .single hab
  | cons c w ih =>
    obtain ⟨hac, hw⟩ := List.isChain_cons_cons.1 h
    exact .head hac (ih hw)

namespace CallGraph

/-- The calls that close none of the cycles reported. -/
def Remains (g : CallGraph) (a b : String) : Prop :=
  g.Calls a b ∧ ∀ c ∈ g.cycles, ¬ Closes c ⟨a, b⟩

theorem mem_cycles_iff (g : CallGraph) (c : List String) :
    c ∈ g.cycles ↔ c ∈ (CycleSearch.whole g).found := by
  simp [cycles, CycleSearch.whole]

theorem remains_iff_open (g : CallGraph) (a b : String) :
    g.Remains a b ↔ CycleSearch.Open g (CycleSearch.whole g) a b := by
  simp only [Remains, CycleSearch.Open, mem_cycles_iff]

theorem transGen_of_isCycle {g : CallGraph} {c : List String} (hc : IsCycle g c) :
    ∃ a, TransGen g.Calls a a := by
  obtain ⟨⟨b, a⟩, hba, hlast, hhead⟩ := hc.closed
  obtain ⟨l, rfl⟩ := List.head?_eq_some_iff.1 hhead
  have hpath : ReflTransGen g.Calls a b := by
    refine List.relationReflTransGen_of_exists_isChain_cons l hc.chain ?_
    exact Option.some.inj ((List.getLast?_eq_some_getLast _).symm.trans hlast)
  exact ⟨a, .tail' hpath hba⟩

section Consistent

variable {g : CallGraph} (hg : g.Consistent)

include hg

theorem isCycle_of_mem {c : List String} (hc : c ∈ g.cycles) : IsCycle g c := by
  obtain ⟨order, h⟩ := (CycleSearch.invariant_whole hg).recorded
  exact h.cycle c ((mem_cycles_iff g c).1 hc)

theorem cycles_not_rotated : g.cycles.Pairwise fun c d => ¬ c.IsRotated d := by
  obtain ⟨order, h⟩ := (CycleSearch.invariant_whole hg).recorded
  rw [cycles, List.pairwise_reverse]
  exact h.not_rotated.imp fun hcd hdc => hcd hdc.symm

theorem cycles_nodup : g.cycles.Nodup := by
  refine (cycles_not_rotated hg).imp ?_
  rintro c d hrot rfl
  exact hrot (.refl c)

/-- Without the closing calls the graph has no cycle. -/
theorem remains_acyclic : Acyclic g.Remains := by
  -- in the end every function has been left, and open calls lead on from it for a while only
  refine .of_acc fun {a b} hab => ?_
  have ha : a ∈ g.nodes := (hg.ends hab.1).1
  have hacc := (CycleSearch.invariant_whole hg).settling.grounded
    (CycleSearch.settled_whole hg ha)
  exact Subrelation.accessible (fun h => (remains_iff_open g _ _).1 h) hacc

theorem cycles_eq_nil_iff : g.cycles = [] ↔ Acyclic g.Calls := by
  constructor
  · intro hnil a ha
    have hremains : ∀ x y, g.Calls x y → g.Remains x y := by
      intro x y hxy
      exact ⟨hxy, by simp [hnil]⟩
    exact remains_acyclic hg a (TransGen.mono hremains a a ha)
  · intro hacyclic
    refine List.eq_nil_iff_forall_not_mem.2 fun c hc => ?_
    obtain ⟨a, ha⟩ := transGen_of_isCycle (isCycle_of_mem hg hc)
    exact hacyclic a ha

/-- A closed walk takes one of the closing calls. -/
theorem exists_closing_of_walk {a : String} {w : List String}
    (h : (a :: w ++ [a]).IsChain g.Calls) :
    ∃ c ∈ g.cycles, ∃ x y, Closes c ⟨x, y⟩ ∧ [x, y] <:+: a :: w ++ [a] := by
  by_contra hnone
  have hremains : (a :: w ++ [a]).IsChain g.Remains := by
    rw [List.isChain_iff_forall_rel_of_append_cons_cons] at h ⊢
    intro x y before after heq
    refine ⟨h heq, fun c hc hclose => hnone ⟨c, hc, x, y, hclose, before, after, ?_⟩⟩
    simp [heq]
  exact remains_acyclic hg a (transGen_of_isChain hremains)

theorem count_cycles_self {f : String} (hf : g.Calls f f) : g.cycles.count [f] = 1 := by
  obtain ⟨c, hc, x, y, hclose, hxy⟩ := exists_closing_of_walk hg (a := f) (w := [])
    (by simpa using hf)
  obtain ⟨rfl, rfl⟩ : x = f ∧ y = f := by
    simpa using hxy.eq_of_length rfl
  -- a cycle that begins and ends with `f` has no other name, since it names `f` once
  have hnodup := (isCycle_of_mem hg hc).nodup
  obtain ⟨l, rfl⟩ := List.head?_eq_some_iff.1 hclose.2
  have hl : l = [] := by
    by_contra hne
    have hlast := hclose.1
    rw [List.getLast?_cons_of_ne_nil hne] at hlast
    exact (List.nodup_cons.1 hnodup).1 (List.mem_of_getLast? hlast)
  subst hl
  exact List.count_eq_one_of_mem (cycles_nodup hg) hc

end Consistent

/-- The cycles reported for a graph under construction are cycles of the graph, no two of them
rotations of one another, with each function that calls itself once among them; and their closing
calls are a feedback set of the graph. -/
theorem closing_calls_feedback (steps : List Insertion) :
    let g := build steps
    (∀ c ∈ g.cycles, c ≠ [] ∧ c.Nodup ∧ c.IsChain g.Calls ∧
      ∃ a b, c.getLast? = some a ∧ c.head? = some b ∧ g.Calls a b) ∧
    g.cycles.Pairwise (fun c d => ¬ c.IsRotated d) ∧
    (∀ f, g.Calls f f → g.cycles.count [f] = 1) ∧
    (∀ a, ¬ TransGen (fun x y => g.Calls x y ∧ ∀ c ∈ g.cycles, ¬ Closes c ⟨x, y⟩) a a) ∧
    (g.cycles = [] ↔ ∀ a, ¬ TransGen g.Calls a a) ∧
    (∀ a w, (a :: w ++ [a]).IsChain g.Calls →
      ∃ c ∈ g.cycles, ∃ x y, Closes c ⟨x, y⟩ ∧ [x, y] <:+: a :: w ++ [a]) := by
  intro g
  have hg : g.Consistent := build_consistent steps
  refine ⟨?_, cycles_not_rotated hg, fun f => count_cycles_self hg, remains_acyclic hg,
    cycles_eq_nil_iff hg, fun a w => exists_closing_of_walk hg⟩
  intro c hc
  have hcycle := isCycle_of_mem hg hc
  obtain ⟨⟨a, b⟩, hab, hlast, hhead⟩ := hcycle.closed
  refine ⟨?_, hcycle.nodup, hcycle.chain, a, b, hlast, hhead, hab⟩
  rintro rfl
  simp at hhead

end CallGraph

end CallAtlas.Graph
