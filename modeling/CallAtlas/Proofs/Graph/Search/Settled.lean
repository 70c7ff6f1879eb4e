import CallAtlas.Proofs.Graph.Search.Move

/-!
# Settled functions

A function is settled when the search has left it. An open call is one that closes none of the cycles
found so far. `Settling` says that open calls lead from settled functions to settled ones only, and
without end nowhere: what an open call of the function about to be left leads to is settled, since
whatever else has been met lies on the path before it.
-/

namespace CallAtlas.Graph

/-- The edge leads from the last name of a cycle back to the first. -/
def Closes (cycle : List String) (e : Edge) : Prop :=
  cycle.getLast? = some e.source ∧ cycle.head? = some e.target

namespace CycleSearch

/-- A call that closes none of the cycles found so far. -/
def Open (g : CallGraph) (s : CycleSearch) (a b : String) : Prop :=
  g.Calls a b ∧ ∀ c ∈ s.found, ¬ Closes c ⟨a, b⟩

/-- A function that the search has left. -/
def Settled (s : CycleSearch) (n : String) : Prop := n ∈ s.visited ∧ n ∉ s.onPath

/-- What the search knows of the calls that it has looked at. -/
structure Settling (g : CallGraph) (s : CycleSearch) : Prop where
  looked_visited : ∀ f ∈ s.path, ∀ m, g.Calls f.name m → m ∉ f.pending → m ∈ s.visited
  looked : ∀ f ∈ s.path, ∀ m, Open g s f.name m → m ∉ f.pending →
    s.Settled m ∨ [m, f.name].Sublist s.names
  callee_visited : ∀ {n m}, s.Settled n → g.Calls n m → m ∈ s.visited
  callee_settled : ∀ {n m}, s.Settled n → Open g s n m → s.Settled m
  grounded : ∀ {n}, s.Settled n → Acc (fun b a => Open g s a b) n

theorem Settling.initial (g : CallGraph) : Settling g {} where
  looked_visited f hf := by simp at hf
  looked f hf := by simp at hf
  callee_visited h := absurd h.1 Std.ExtTreeSet.not_mem_empty
  callee_settled h := absurd h.1 Std.ExtTreeSet.not_mem_empty
  grounded h := absurd h.1 Std.ExtTreeSet.not_mem_empty

theorem settled_enter_iff {g : CallGraph} {s : CycleSearch} {c : String} (hv : c ∉ s.visited)
    (n : String) : (enter g s c).Settled n ↔ s.Settled n := by
  simp only [Settled, mem_visited_enter, mem_onPath_enter, not_or]
  constructor
  · rintro ⟨rfl | hn, hne, ho⟩
    · exact absurd rfl hne
    · exact ⟨hn, ho⟩
  · rintro ⟨hn, ho⟩
    refine ⟨.inr hn, ?_, ho⟩
    rintro rfl
    exact hv hn

/-- No function of the path stands before its end. -/
theorem not_sublist_head {l : List String} {n m : String} (hn : (n :: l).Nodup) :
    ¬ [m, n].Sublist (n :: l) := by
  intro h
  have hnl : n ∉ l := (List.nodup_cons.1 hn).1
  cases h with
  | cons _ h => exact hnl (h.subset (by simp))
  | cons_cons _ h => exact hnl (h.subset (by simp))

section Moves

variable {g : CallGraph} {s : CycleSearch}

/-- Functions entered on the path settle nothing, whether or not a call led to them. `path` is the
path before, with the call passed over. -/
theorem Settling.enter (h : Settling g s) {c : String} (path : List Frame)
    (hv : c ∉ s.visited) (hnames : path.map Frame.name = s.names)
    (hpath : ∀ f ∈ path, ∃ k ∈ s.path, k.name = f.name ∧
      ∀ m, m ∉ f.pending → m ∉ k.pending ∨ (m = c ∧ [c, f.name].Sublist (c :: s.names)))
    (hg : g.Consistent) :
    Settling g (CycleSearch.enter g { s with path } c) := by
  have hsettled : ∀ n, (CycleSearch.enter g { s with path } c).Settled n ↔ s.Settled n :=
    settled_enter_iff hv
  constructor
  · intro f hf m hm hp
    rw [mem_visited_enter]
    rcases List.mem_cons.1 hf with rfl | hf
    · exact absurd ((hg.mem_callees c m).2 hm) hp
    · obtain ⟨k, hk, hkn, hkp⟩ := hpath f hf
      rcases hkp m hp with hkp | ⟨rfl, -⟩
      · exact .inr (h.looked_visited k hk m (hkn ▸ hm) hkp)
      · exact .inl rfl
  · intro f hf m hm hp
    rw [hsettled, names_enter]
    show _ ∨ [m, f.name].Sublist (c :: path.map Frame.name)
    rw [hnames]
    rcases List.mem_cons.1 hf with rfl | hf
    · exact absurd ((hg.mem_callees c m).2 hm.1) hp
    · obtain ⟨k, hk, hkn, hkp⟩ := hpath f hf
      rcases hkp m hp with hkp | ⟨rfl, hsub⟩
      · rcases h.looked k hk m (hkn ▸ hm) hkp with hs | hs
        · exact .inl hs
        · exact .inr (.cons _ (hkn ▸ hs))
      · exact .inr hsub
  · intro n m hn hm
    rw [mem_visited_enter]
    exact .inr (h.callee_visited ((hsettled n).1 hn) hm)
  · intro n m hn hm
    rw [hsettled] at hn ⊢
    exact h.callee_settled hn hm
  · intro n hn
    exact h.grounded ((hsettled n).1 hn)

theorem Settling.leave (ht : Tracked g s) (h : Settling g s) {n : String} {rest : List Frame}
    (hp : s.path = ⟨n, []⟩ :: rest) :
    Settling g { s with onPath := s.onPath.erase n, path := rest } := by
  have hnames := names_of_path hp
  have hn : n ∈ s.visited := ht.visited n (by simp [hnames])
  have hend : (⟨n, []⟩ : Frame) ∈ s.path := by simp [hp]
  have hsettled : ∀ m, { s with onPath := s.onPath.erase n, path := rest : CycleSearch }.Settled m ↔
      m = n ∨ s.Settled m := by
    intro m
    simp only [Settled, Std.ExtTreeSet.mem_erase, Std.compare_eq_iff_eq, ne_eq, not_and]
    constructor
    · rintro ⟨hm, ho⟩
      by_cases hmn : n = m
      · exact .inl hmn.symm
      · exact .inr ⟨hm, ho hmn⟩
    · rintro (rfl | ⟨hm, ho⟩)
      · exact ⟨hn, fun hne => absurd rfl hne⟩
      · exact ⟨hm, fun _ => ho⟩
  -- nothing is pending at `n`, and what was entered after `n` has been left before it
  have hcallee : ∀ m, Open g s n m → s.Settled m := by
    intro m hm
    rcases h.looked _ hend m hm (by simp) with hs | hs
    · exact hs
    · rw [hnames] at hs
      exact absurd hs (not_sublist_head (hnames ▸ ht.nodup))
  constructor
  · intro f hf m hm hpend
    exact h.looked_visited f (mem_path_of_rest hp hf) m hm hpend
  · intro f hf m hm hpend
    rw [hsettled]
    rcases h.looked f (mem_path_of_rest hp hf) m hm hpend with hs | hs
    · exact .inl (.inr hs)
    · rw [hnames] at hs
      cases hs with
      | cons _ hs => exact .inr hs
      | cons_cons _ hs => exact .inl (.inl rfl)
  · intro k m hk hm
    rcases (hsettled k).1 hk with rfl | hk
    · exact h.looked_visited _ hend m hm (by simp)
    · exact h.callee_visited hk hm
  · intro k m hk hm
    rw [hsettled]
    rcases (hsettled k).1 hk with rfl | hk
    · exact .inr (hcallee m hm)
    · exact .inr (h.callee_settled hk hm)
  · intro k hk
    rcases (hsettled k).1 hk with rfl | hk
    · exact .intro k fun m hm => h.grounded (hcallee m hm)
    · exact h.grounded hk

/-- A callee at the end of the path is passed over, because it has been left or because the call
closes a cycle, which is then among those found. -/
theorem Settling.look (h : Settling g s) {n c : String} {pending : List String}
    {rest : List Frame} {found : List (List String)}
    (hp : s.path = ⟨n, c :: pending⟩ :: rest) (hv : c ∈ s.visited)
    (hfound : ∀ d ∈ s.found, d ∈ found)
    (hc : s.Settled c ∨ ∃ d ∈ found, Closes d ⟨n, c⟩) :
    Settling g { s with path := ⟨n, pending⟩ :: rest, found } := by
  have hopen : ∀ {a b}, Open g { s with path := ⟨n, pending⟩ :: rest, found } a b →
      Open g s a b :=
    fun hab => ⟨hab.1, fun d hd => hab.2 d (hfound d hd)⟩
  have hnames : { s with path := ⟨n, pending⟩ :: rest, found : CycleSearch }.names = s.names := by
    simp [names, hp]
  have hend : (⟨n, c :: pending⟩ : Frame) ∈ s.path := by simp [hp]
  constructor
  · intro f hf m hm hpend
    rcases List.mem_cons.1 hf with rfl | hf
    · by_cases hmc : m = c
      · exact hmc ▸ hv
      · exact h.looked_visited _ hend m hm (by simp [hmc, show m ∉ pending from hpend])
    · exact h.looked_visited f (mem_path_of_rest hp hf) m hm hpend
  · intro f hf m hm hpend
    rw [hnames]
    rcases List.mem_cons.1 hf with rfl | hf
    · by_cases hmc : m = c
      · subst hmc
        rcases hc with hs | ⟨d, hd, hclose⟩
        · exact .inl hs
        · exact absurd hclose (hm.2 d hd)
      · exact h.looked _ hend m (hopen hm) (by simp [hmc, show m ∉ pending from hpend])
    · exact h.looked f (mem_path_of_rest hp hf) m (hopen hm) hpend
  · intro k m hk hm
    exact h.callee_visited hk hm
  · intro k m hk hm
    exact h.callee_settled hk (hopen hm)
  · intro k hk
    exact Subrelation.accessible (fun hab => hopen hab) (h.grounded hk)

end Moves

/-- The last function of a cycle found is the end of the path. -/
theorem closes_inner {n c : String} {inner outer l : List String}
    (hn : n :: l = inner ++ c :: outer) : Closes (c :: inner.reverse) ⟨n, c⟩ := by
  refine ⟨?_, rfl⟩
  cases inner with
  | nil =>
    obtain ⟨rfl, -⟩ := List.cons.inj hn
    rfl
  | cons k inner =>
    obtain ⟨rfl, -⟩ := List.cons.inj hn
    simp [List.getLast?_cons, List.getLast?_append]

theorem Settling.move {g : CallGraph} (hg : g.Consistent) {s t : CycleSearch} (ht : Tracked g s)
    (h : Settling g s) (hm : Move g s t) : Settling g t := by
  cases hm with
  | root hp hn hv =>
    exact h.enter s.path hv rfl (fun f hf => ⟨f, hf, rfl, fun m hm => .inl hm⟩) hg
  | leave hp => exact h.leave ht hp
  | @call n c pending rest hp hv =>
    have hnames := names_of_path hp
    refine h.enter _ hv (by simp [hnames]) ?_ hg
    intro f hf
    rcases List.mem_cons.1 hf with rfl | hf
    · refine ⟨⟨n, c :: pending⟩, by simp [hp], rfl, fun m hm => ?_⟩
      by_cases hmc : m = c
      · exact .inr ⟨hmc, by rw [hnames]; simp⟩
      · exact .inl (by simp [hmc, show m ∉ pending from hm])
    · exact ⟨f, mem_path_of_rest hp hf, rfl, fun m hm => .inl hm⟩
  | @close n c pending inner outer rest hp hc hn =>
    have hv : c ∈ s.visited := ht.visited c ((ht.mem_onPath c).1 hc)
    rw [names_of_path hp] at hn
    exact h.look hp hv (fun d hd => List.mem_cons_of_mem _ hd)
      (.inr ⟨_, List.mem_cons_self, closes_inner hn⟩)
  | pass hp hv hc => exact h.look hp hv (fun d hd => hd) (.inl ⟨hv, hc⟩)

end CycleSearch

end CallAtlas.Graph
