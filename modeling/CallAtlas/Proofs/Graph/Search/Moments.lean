import CallAtlas.Proofs.Graph.Search.Run
import Mathlib.Data.Nat.Find

/-!
# Moments of the search

The search from all functions is one sequence of moves: as long as there is a path the search steps
along it, otherwise it enters the first function not yet met. So a moment of the search is a number of
moves, and one can say which functions the search has left before it meets another one.
-/

namespace CallAtlas.Graph

namespace CycleSearch

/-- What the search does next. -/
def next (g : CallGraph) (s : CycleSearch) : CycleSearch :=
  if s.path.isEmpty then
    match g.nodes.toList.find? (· ∉ s.visited) with
    | some root => enter g s root
    | none => s
  else step g s

/-- The search after some moves. -/
def moment (g : CallGraph) (k : Nat) : CycleSearch := (next g)^[k] {}

/-- The search has left a function before it meets another one. -/
def LeftBefore (g : CallGraph) (n f : String) : Prop :=
  ∃ k, (moment g k).Settled n ∧ f ∉ (moment g k).visited

theorem moment_succ (g : CallGraph) (k : Nat) : moment g (k + 1) = next g (moment g k) :=
  Function.iterate_succ_apply' _ _ _

theorem next_of_path_ne_nil (g : CallGraph) {s : CycleSearch} (h : s.path ≠ []) :
    next g s = step g s := by
  rw [next, if_neg (by simpa using h)]

theorem next_of_path_nil (g : CallGraph) {s : CycleSearch} (h : s.path = []) {n : String}
    {before after : List String} (hnodes : g.nodes.toList = before ++ n :: after)
    (hbefore : ∀ m ∈ before, m ∈ s.visited) (hn : n ∉ s.visited) : next g s = enter g s n := by
  have hfind : g.nodes.toList.find? (· ∉ s.visited) = some n := by
    rw [hnodes, List.find?_append, List.find?_eq_none.2 (by simpa using hbefore)]
    simp [hn]
  rw [next, if_pos (by simp [h]), hfind]

theorem next_of_all_visited (g : CallGraph) {s : CycleSearch} (h : s.path = [])
    (hall : ∀ n ∈ g.nodes, n ∈ s.visited) : next g s = s := by
  have hfind : g.nodes.toList.find? (· ∉ s.visited) = none := by
    simpa using hall
  rw [next, if_pos (by simp [h]), hfind]

theorem move_next {g : CallGraph} {s : CycleSearch} (h : Tracked g s) :
    next g s = s ∨ Move g s (next g s) := by
  by_cases hp : s.path = []
  · rw [next, if_pos (by simp [hp])]
    split
    · rename_i n hfind
      have hn : n ∉ s.visited := by simpa using List.find?_some hfind
      exact .inr (.root hp (Std.ExtTreeSet.mem_toList.1 (List.mem_of_find?_eq_some hfind)) hn)
    · exact .inl rfl
  · rw [next_of_path_ne_nil g hp]
    exact .inr (move_step h hp)

/-! ## The search from all functions -/

theorem exists_iterate_finish (g : CallGraph) (fuel : Nat) (s : CycleSearch) :
    ∃ k, (next g)^[k] s = finish g fuel s := by
  induction fuel generalizing s with
  | zero => exact ⟨0, rfl⟩
  | succ fuel ih =>
    rw [finish]
    split
    · exact ⟨0, rfl⟩
    · rename_i hne
      obtain ⟨k, hk⟩ := ih (step g s)
      refine ⟨k + 1, ?_⟩
      rw [Function.iterate_succ_apply, next_of_path_ne_nil g (by simpa using hne), hk]

/-- Exploring from the functions in turn enters the first one not yet met whenever the path is
empty. -/
theorem exists_iterate_foldl_explore {g : CallGraph} (hg : g.Consistent)
    {before roots after : List String} (hnodes : g.nodes.toList = before ++ roots ++ after)
    {s : CycleSearch} (h : Invariant g s) (hp : s.path = [])
    (hbefore : ∀ n ∈ before, n ∈ s.visited) :
    ∃ k, (next g)^[k] s = roots.foldl (explore g) s := by
  induction roots generalizing before s with
  | nil => exact ⟨0, rfl⟩
  | cons n roots ih =>
    have hn : n ∈ g.nodes := Std.ExtTreeSet.mem_toList.1 (by simp [hnodes])
    obtain ⟨hm, hp', hv'⟩ := explore_spec hg h.tracked hp hn
    have hbefore' : ∀ m ∈ before ++ [n], m ∈ (explore g s n).visited := by
      intro m hmem
      rcases List.mem_append.1 hmem with hmem | hmem
      · exact visited_moves hm (hbefore m hmem)
      · exact List.mem_singleton.1 hmem ▸ hv'
    obtain ⟨k, hk⟩ := ih (by simpa using hnodes) (h.moves hg hm) hp' hbefore'
    obtain ⟨j, hj⟩ : ∃ j, (next g)^[j] s = explore g s n := by
      by_cases hv : n ∈ s.visited
      · exact ⟨0, (explore_of_visited g hv).symm⟩
      · obtain ⟨j, hj⟩ := exists_iterate_finish g (enough g) (enter g s n)
        refine ⟨j + 1, ?_⟩
        have hroots := hnodes.trans (List.append_assoc before (n :: roots) after)
        rw [Function.iterate_succ_apply, next_of_path_nil g hp hroots hbefore hv, hj,
          explore_of_not_visited g hv]
    exact ⟨k + j, by rw [Function.iterate_add_apply, hj, hk, List.foldl_cons]⟩

section Consistent

variable {g : CallGraph} (hg : g.Consistent)

include hg

theorem invariant_moment (k : Nat) : Invariant g (moment g k) := by
  induction k with
  | zero => exact .initial g
  | succ k ih =>
    rw [moment_succ]
    rcases move_next ih.tracked with heq | hm
    · exact heq.symm ▸ ih
    · exact ih.move hg hm

theorem moves_moment {j k : Nat} (h : j ≤ k) : Moves g (moment g j) (moment g k) := by
  induction k, h using Nat.le_induction with
  | base => exact .refl
  | succ k _ ih =>
    rw [moment_succ]
    rcases move_next (invariant_moment hg k).tracked with heq | hm
    · rw [heq]
      exact ih
    · exact ih.tail hm

/-- From some moment on nothing is left to do. -/
theorem moment_eq_whole : ∃ k, ∀ j, k ≤ j → moment g j = whole g := by
  have hnodes : g.nodes.toList = [] ++ g.nodes.toList ++ [] := by simp
  obtain ⟨k, hk⟩ := exists_iterate_foldl_explore hg hnodes (Invariant.initial g) rfl (by simp)
  obtain ⟨hp, hall⟩ := whole_spec hg
  refine ⟨k, fun j hj => ?_⟩
  rw [moment, ← Nat.sub_add_cancel hj, Function.iterate_add_apply, hk]
  exact Function.iterate_fixed (next_of_all_visited g hp hall) _

/-- Where something begins to hold, the search moves. -/
theorem move_turn {P : CycleSearch → Prop} {k : Nat} (h : ¬ P (moment g k))
    (h' : P (moment g (k + 1))) : Move g (moment g k) (moment g (k + 1)) := by
  rw [moment_succ] at h' ⊢
  rcases move_next (invariant_moment hg k).tracked with heq | hm
  · exact absurd (heq ▸ h') h
  · exact hm

/-- What does not hold at first, is kept by every move and holds in the end begins to hold with one
move and no other. -/
theorem existsUnique_turn {P : CycleSearch → Prop} (hinitial : ¬ P {})
    (hkept : ∀ {s t}, Move g s t → P s → P t) (hend : P (whole g)) :
    ∃! k, ¬ P (moment g k) ∧ P (moment g (k + 1)) := by
  classical
  obtain ⟨last, hlast⟩ := moment_eq_whole hg
  have hmoments : ∀ {j k}, j ≤ k → P (moment g j) → P (moment g k) :=
    fun hjk => kept_moves hkept (moves_moment hg hjk)
  have hsome : ∃ k, P (moment g k) := ⟨last, by rw [hlast last le_rfl]; exact hend⟩
  obtain ⟨k, hk⟩ : ∃ k, Nat.find hsome = k + 1 := by
    refine Nat.exists_eq_succ_of_ne_zero fun hzero => hinitial ?_
    have hspec := Nat.find_spec hsome
    rwa [hzero] at hspec
  have hbefore : ¬ P (moment g k) := Nat.find_min hsome (by omega)
  have hafter : P (moment g (k + 1)) := by
    rw [← hk]
    exact Nat.find_spec hsome
  refine ⟨k, ⟨hbefore, hafter⟩, ?_⟩
  rintro j ⟨hj, hj'⟩
  -- an earlier turn would have to be undone, a later one would come too late
  rcases Nat.lt_trichotomy j k with hjk | rfl | hkj
  · exact absurd (hmoments hjk hj') hbefore
  · rfl
  · exact absurd (hmoments hkj hafter) hj

/-- Every function is met by one of the moves. -/
theorem exists_meeting {f : String} (hf : f ∈ g.nodes) :
    ∃ k, f ∉ (moment g k).visited ∧ f ∈ (moment g (k + 1)).visited :=
  (existsUnique_turn hg (P := (f ∈ ·.visited)) Std.ExtTreeSet.not_mem_empty
    (fun hm hn => visited_move hm hn) ((whole_spec hg).2 f hf)).exists

end Consistent

/-! ## What later moves keep -/

theorem Invariant.visited_of_found {g : CallGraph} {s : CycleSearch} (h : Invariant g s)
    {c : List String} (hc : c ∈ s.found) {n : String} (hn : n ∈ c) : n ∈ s.visited := by
  obtain ⟨order, hr⟩ := h.recorded
  exact (hr.mem_order n).1 ((hr.reverse_sublist c hc).subset (List.mem_reverse.2 hn))

theorem settled_move {g : CallGraph} {s t : CycleSearch} (hm : Move g s t) {n : String}
    (hn : s.Settled n) : t.Settled n := by
  cases hm with
  | root hp hn' hv => exact (settled_enter_iff hv n).2 hn
  | leave hp => exact ⟨hn.1, fun ho => hn.2 (Std.ExtTreeSet.mem_of_mem_erase ho)⟩
  | @call m c pending rest hp hv =>
    exact (settled_enter_iff (s := { s with path := ⟨m, pending⟩ :: rest }) hv n).2 hn
  | close hp hc hs => exact hn
  | pass hp hv hc => exact hn

theorem settled_moves {g : CallGraph} {s t : CycleSearch} (hm : Moves g s t) {n : String}
    (hn : s.Settled n) : t.Settled n :=
  kept_moves (P := (Settled · n)) (fun hm hn => settled_move hm hn) hm hn

theorem found_move {g : CallGraph} {s t : CycleSearch} (hm : Move g s t) {c : List String}
    (hc : c ∈ s.found) : c ∈ t.found := by
  cases hm with
  | root hp => exact hc
  | leave hp => exact hc
  | call hp hv => exact hc
  | close hp hc' hs => exact List.mem_cons_of_mem _ hc
  | pass hp hv hc' => exact hc

/-- A cycle found later has no function that had been left. -/
theorem not_settled_of_found {g : CallGraph} (hg : g.Consistent) {s t : CycleSearch}
    (h : Invariant g s) (hm : Moves g s t) {c : List String} (hc : c ∈ t.found) :
    c ∈ s.found ∨ ∀ n ∈ c, ¬ s.Settled n := by
  induction hm with
  | refl => exact .inl hc
  | @tail u t hsu hm ih =>
    cases hm with
    | root hp => exact ih hc
    | leave hp => exact ih hc
    | call hp hv => exact ih hc
    | pass hp hv hc' => exact ih hc
    | @close _ _ _ inner outer _ hp hc' hn =>
      rcases List.mem_cons.1 hc with rfl | hc
      · right
        intro n hmem hs
        have hpath : n ∈ u.names := by
          rw [hn]
          rcases List.mem_cons.1 hmem with rfl | hmem
          · simp
          · exact List.mem_append_left _ (List.mem_reverse.1 hmem)
        have hu := (h.moves hg hsu).tracked
        exact (settled_moves hsu hs).2 ((hu.mem_onPath n).2 hpath)
      · exact ih hc

end CycleSearch

end CallAtlas.Graph
