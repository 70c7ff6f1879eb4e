import CallAtlas.Proofs.Graph.Search.Settled
import Mathlib.Data.List.Rotate

/-!
# Cycles found

Every list found is a cycle of the graph. It lists its functions in the order in which they were met,
so that of the rotations of a cycle at most one is found; and no two have the same closing call, since
a call is looked at only once.
-/

namespace CallAtlas.Graph

/-- Different names, each with a call to the next one, and with a call from the last to the first. -/
structure IsCycle (g : CallGraph) (cycle : List String) : Prop where
  nodup : cycle.Nodup
  chain : cycle.IsChain g.Calls
  closed : ∃ e ∈ g.edges, Closes cycle e

namespace CycleSearch

/-- What the search knows of the cycles found. `order` lists the functions met, the last one first. -/
structure Recorded (g : CallGraph) (s : CycleSearch) (order : List String) : Prop where
  nodup : order.Nodup
  mem_order : ∀ n, n ∈ order ↔ n ∈ s.visited
  names_sublist : s.names.Sublist order
  cycle : ∀ c ∈ s.found, IsCycle g c
  reverse_sublist : ∀ c ∈ s.found, c.reverse.Sublist order
  looked : ∀ c ∈ s.found, ∀ {a b}, Closes c ⟨a, b⟩ → ∀ f ∈ s.path, f.name = a → b ∉ f.pending
  distinct : s.found.Pairwise fun c d => ∀ e, Closes c e → ¬ Closes d e

theorem Recorded.initial (g : CallGraph) : Recorded g {} [] where
  nodup := List.nodup_nil
  mem_order n := by simp
  names_sublist := List.nil_sublist _
  cycle c hc := by simp at hc
  reverse_sublist c hc := by simp at hc
  looked c hc := by simp at hc
  distinct := .nil

theorem mem_of_closes {c : List String} {e : Edge} (h : Closes c e) : e.source ∈ c :=
  List.mem_of_getLast? h.1

section Moves

variable {g : CallGraph} {s : CycleSearch} {order : List String}

theorem Recorded.enter (h : Recorded g s order) {c : String} (hv : c ∉ s.visited) :
    Recorded g (CycleSearch.enter g s c) (c :: order) where
  nodup := List.nodup_cons.2 ⟨fun hc => hv ((h.mem_order c).1 hc), h.nodup⟩
  mem_order n := by simp [h.mem_order]
  names_sublist := h.names_sublist.cons_cons c
  cycle := h.cycle
  reverse_sublist d hd := (h.reverse_sublist d hd).cons c
  looked := by
    intro d hd a b hclose f hf hname
    rcases List.mem_cons.1 hf with rfl | hf
    · -- the source of the closing call was met before `c`
      have ha : a ∈ order :=
        (h.reverse_sublist d hd).subset (List.mem_reverse.2 (mem_of_closes hclose))
      have hca : c = a := hname
      exact absurd ((h.mem_order a).1 ha) (hca ▸ hv)
    · exact h.looked d hd hclose f hf hname
  distinct := h.distinct

theorem Recorded.leave (h : Recorded g s order) {n : String} {rest : List Frame}
    (hp : s.path = ⟨n, []⟩ :: rest) :
    Recorded g { s with onPath := s.onPath.erase n, path := rest } order where
  nodup := h.nodup
  mem_order := h.mem_order
  names_sublist := by
    have hsub := h.names_sublist
    rw [names_of_path hp] at hsub
    exact (List.sublist_cons_self n _).trans hsub
  cycle := h.cycle
  reverse_sublist := h.reverse_sublist
  looked d hd _ _ hclose f hf hname := h.looked d hd hclose f (mem_path_of_rest hp hf) hname
  distinct := h.distinct

theorem Recorded.pass (h : Recorded g s order) {n c : String} {pending : List String}
    {rest : List Frame} (hp : s.path = ⟨n, c :: pending⟩ :: rest) :
    Recorded g { s with path := ⟨n, pending⟩ :: rest } order where
  nodup := h.nodup
  mem_order := h.mem_order
  names_sublist := by simpa [names, hp] using h.names_sublist
  cycle := h.cycle
  reverse_sublist := h.reverse_sublist
  looked := by
    intro d hd a b hclose f hf hname
    rcases List.mem_cons.1 hf with rfl | hf
    · have hb := h.looked d hd hclose ⟨n, c :: pending⟩ (by simp [hp]) hname
      exact fun hmem => hb (List.mem_cons_of_mem c hmem)
    · exact h.looked d hd hclose f (mem_path_of_rest hp hf) hname
  distinct := h.distinct

/-- A cycle along the path: its functions in reverse end the path, and the call just looked at closes
it. -/
theorem isCycle_inner (hg : g.Consistent) (ht : Tracked g s) {n c : String}
    {pending inner outer : List String} {rest : List Frame}
    (hp : s.path = ⟨n, c :: pending⟩ :: rest) (hn : s.names = inner ++ c :: outer) :
    IsCycle g (c :: inner.reverse) := by
  have hprefix : (c :: inner.reverse).reverse <+: s.names := by
    rw [hn]
    exact ⟨outer, by simp⟩
  constructor
  · exact List.nodup_reverse.1 (ht.nodup.sublist hprefix.sublist)
  · have hchain := ht.chain.prefix hprefix
    exact List.isChain_reverse.1 hchain
  · refine ⟨⟨n, c⟩, ht.calls hg hp, ?_⟩
    rw [names_of_path hp] at hn
    exact closes_inner hn

theorem Recorded.close (hg : g.Consistent) (ht : Tracked g s) (h : Recorded g s order)
    {n c : String} {pending inner outer : List String} {rest : List Frame}
    (hp : s.path = ⟨n, c :: pending⟩ :: rest) (hn : s.names = inner ++ c :: outer) :
    Recorded g { s with
      path := ⟨n, pending⟩ :: rest, found := (c :: inner.reverse) :: s.found } order := by
  have hpass := h.pass hp
  have hend : (⟨n, c :: pending⟩ : Frame) ∈ s.path := by simp [hp]
  have hclose : Closes (c :: inner.reverse) ⟨n, c⟩ := closes_inner (names_of_path hp ▸ hn)
  have hunique : ∀ {e}, Closes (c :: inner.reverse) e → e = ⟨n, c⟩ := by
    rintro ⟨a, b⟩ ⟨hlast, hhead⟩
    obtain rfl := Option.some.inj (hlast.symm.trans hclose.1)
    obtain rfl := Option.some.inj (hhead.symm.trans hclose.2)
    rfl
  refine ⟨h.nodup, h.mem_order, hpass.names_sublist, ?_, ?_, ?_, ?_⟩
  · intro d hd
    rcases List.mem_cons.1 hd with rfl | hd
    · exact isCycle_inner hg ht hp hn
    · exact h.cycle d hd
  · intro d hd
    rcases List.mem_cons.1 hd with rfl | hd
    · refine List.Sublist.trans ?_ h.names_sublist
      rw [hn]
      exact List.IsPrefix.sublist ⟨outer, by simp⟩
    · exact h.reverse_sublist d hd
  · intro d hd a b hd' f hf hname
    rcases List.mem_cons.1 hd with rfl | hd
    · obtain ⟨rfl, rfl⟩ := Edge.mk.inj (hunique hd')
      rcases List.mem_cons.1 hf with rfl | hf
      · -- the callees are listed without repetition
        have hsuffix := ht.pending _ hend
        have hnodup : (b :: pending).Nodup := (NameSet.nodup _).sublist hsuffix.sublist
        exact (List.nodup_cons.1 hnodup).1
      · have hnd := ht.nodup
        rw [names_of_path hp, List.nodup_cons] at hnd
        exact absurd (List.mem_map.2 ⟨f, hf, hname⟩) hnd.1
    · exact hpass.looked d hd hd' f hf hname
  · refine List.pairwise_cons.2 ⟨?_, h.distinct⟩
    intro d hd e he hde
    obtain rfl := hunique he
    exact h.looked d hd hde _ hend rfl (by simp)

end Moves

theorem Recorded.move {g : CallGraph} (hg : g.Consistent) {s t : CycleSearch}
    {order : List String} (ht : Tracked g s) (h : Recorded g s order) (hm : Move g s t) :
    ∃ order', Recorded g t order' := by
  cases hm with
  | root hp hn hv => exact ⟨_, h.enter hv⟩
  | leave hp => exact ⟨_, h.leave hp⟩
  | call hp hv => exact ⟨_, (h.pass hp).enter hv⟩
  | close hp hc hn => exact ⟨_, h.close hg ht hp hn⟩
  | pass hp hv hc => exact ⟨_, h.pass hp⟩

/-! ## Rotations -/

/-- Parts of a list without repetitions that have the same members are the same. -/
theorem eq_of_sublist {l m order : List String} (ho : order.Nodup) (hl : l.Sublist order)
    (hm : m.Sublist order) (h : l.Perm m) : l = m := by
  induction order generalizing l m with
  | nil => rw [List.sublist_nil.1 hl, List.sublist_nil.1 hm]
  | cons n order ih =>
    obtain ⟨hn, ho⟩ := List.nodup_cons.1 ho
    cases hl with
    | cons _ hl =>
      cases hm with
      | cons _ hm => exact ih ho hl hm h
      | cons_cons _ hm => exact absurd (hl.subset (h.symm.subset (by simp))) hn
    | cons_cons _ hl =>
      cases hm with
      | cons _ hm => exact absurd (hm.subset (h.subset (by simp))) hn
      | cons_cons _ hm => rw [ih ho hl hm ((List.perm_cons n).1 h)]

theorem Recorded.not_rotated {g : CallGraph} {s : CycleSearch} {order : List String}
    (h : Recorded g s order) : s.found.Pairwise fun c d => ¬ c.IsRotated d := by
  refine h.distinct.imp_of_mem ?_
  intro c d hc hd hdistinct hrot
  have hrev : c.reverse = d.reverse :=
    eq_of_sublist h.nodup (h.reverse_sublist c hc) (h.reverse_sublist d hd) hrot.reverse.perm
  obtain rfl := List.reverse_injective hrev
  obtain ⟨e, -, he⟩ := (h.cycle c hc).closed
  exact hdistinct e he he

end CycleSearch

end CallAtlas.Graph
