import CallAtlas.Proofs.Graph.Search.Recorded
import Mathlib.Algebra.Order.BigOperators.Group.List
import Mathlib.Algebra.Order.Group.Nat
import Mathlib.Logic.Relation

/-!
# Whole searches

`work` counts what is left to do: each function not yet met counts for itself and its calls, each
function on the path for itself and the calls pending. Every step from a path that is not empty takes
one off, so that the steps granted suffice. A whole search is therefore a sequence of moves that ends
with an empty path and with all functions met.
-/

namespace CallAtlas.Graph

namespace CycleSearch

/-- What a search is known to keep. -/
structure Invariant (g : CallGraph) (s : CycleSearch) : Prop where
  tracked : Tracked g s
  settling : Settling g s
  recorded : ∃ order, Recorded g s order

theorem Invariant.initial (g : CallGraph) : Invariant g {} :=
  ⟨.initial g, .initial g, [], .initial g⟩

theorem Invariant.move {g : CallGraph} (hg : g.Consistent) {s t : CycleSearch}
    (h : Invariant g s) (hm : Move g s t) : Invariant g t := by
  obtain ⟨order, hr⟩ := h.recorded
  exact ⟨h.tracked.move hg hm, h.settling.move hg h.tracked hm, hr.move hg h.tracked hm⟩

/-! ## The work left -/

/-- What a function counts for as long as it is not among those met. -/
def unmet (g : CallGraph) (visited : NameSet) (n : String) : Nat :=
  if n ∈ visited then 0 else 1 + g.outDegree n

/-- How much is left to do. -/
def work (g : CallGraph) (s : CycleSearch) : Nat :=
  (g.nodes.toList.map (unmet g s.visited)).sum + (s.path.map fun f => 1 + f.pending.length).sum

/-- Meeting a function takes what it counts for off the sum. -/
theorem sum_unmet_enter (g : CallGraph) {s : CycleSearch} {c : String} (hv : c ∉ s.visited)
    {names : List String} (hnd : names.Nodup) (hc : c ∈ names) :
    (names.map (unmet g s.visited)).sum =
      (names.map (unmet g (enter g s c).visited)).sum + (1 + g.outDegree c) := by
  have hother : ∀ n, n ≠ c → unmet g (enter g s c).visited n = unmet g s.visited n := by
    intro n hn
    simp [unmet, hn]
  -- `c` stands in one place only, and the other names count as before
  obtain ⟨before, after, rfl⟩ := List.append_of_mem hc
  have hne : ∀ n ∈ before ++ after, n ≠ c := by
    rintro n hn rfl
    exact (List.nodup_cons.1 (List.nodup_middle.1 hnd)).1 hn
  have hbefore : before.map (unmet g (enter g s c).visited) = before.map (unmet g s.visited) :=
    List.map_congr_left fun n hn => hother n (hne n (List.mem_append_left _ hn))
  have hafter : after.map (unmet g (enter g s c).visited) = after.map (unmet g s.visited) :=
    List.map_congr_left fun n hn => hother n (hne n (List.mem_append_right _ hn))
  have hnew : unmet g s.visited c = 1 + g.outDegree c := by simp [unmet, hv]
  have hmet : unmet g (enter g s c).visited c = 0 := by simp [unmet]
  simp only [List.map_append, List.map_cons, List.sum_append, List.sum_cons, hbefore, hafter,
    hnew, hmet]
  omega

theorem work_enter {g : CallGraph} {s : CycleSearch} {c : String} (hv : c ∉ s.visited)
    (hc : c ∈ g.nodes) : work g (enter g s c) = work g s := by
  have hsum := sum_unmet_enter g hv (NameSet.nodup g.nodes) (Std.ExtTreeSet.mem_toList.2 hc)
  have hlen : (g.callees c).length = g.outDegree c := Std.ExtTreeSet.length_toList
  simp only [work, path_enter, List.map_cons, List.sum_cons, hlen]
  omega

theorem work_move {g : CallGraph} (hg : g.Consistent) {s t : CycleSearch} (ht : Tracked g s)
    (hm : Move g s t) (hne : s.path ≠ []) : work g s = work g t + 1 := by
  cases hm with
  | root hp => exact absurd hp hne
  | leave hp =>
    simp only [work, hp, List.map_cons, List.sum_cons, List.length_nil]
    omega
  | @call n c pending rest hp hv =>
    have hc : c ∈ g.nodes := (hg.ends (ht.calls hg hp)).2
    rw [work_enter (s := { s with path := ⟨n, pending⟩ :: rest }) hv hc]
    simp only [work, hp, List.map_cons, List.sum_cons, List.length_cons]
    omega
  | close hp hc hn =>
    simp only [work, hp, List.map_cons, List.sum_cons, List.length_cons]
    omega
  | pass hp hv hc =>
    simp only [work, hp, List.map_cons, List.sum_cons, List.length_cons]
    omega

/-! ## From a root to an empty path -/

/-- A search goes on by some moves. -/
abbrev Moves (g : CallGraph) : CycleSearch → CycleSearch → Prop :=
  Relation.ReflTransGen (Move g)

/-- What every move keeps is kept by some moves. -/
theorem kept_moves {g : CallGraph} {P : CycleSearch → Prop}
    (hkept : ∀ {s t}, Move g s t → P s → P t) {s t : CycleSearch} (hm : Moves g s t) (h : P s) :
    P t := by
  induction hm with
  | refl => exact h
  | tail _ hm ih => exact hkept hm ih

theorem Invariant.moves {g : CallGraph} (hg : g.Consistent) {s t : CycleSearch}
    (h : Invariant g s) (hm : Moves g s t) : Invariant g t :=
  kept_moves (fun hm h => h.move hg hm) hm h

theorem visited_move {g : CallGraph} {s t : CycleSearch} (hm : Move g s t) {n : String}
    (hn : n ∈ s.visited) : n ∈ t.visited := by
  cases hm with
  | root hp => simp [hn]
  | call hp hv => simp [hn]
  | leave hp => exact hn
  | close hp hc hs => exact hn
  | pass hp hv hc => exact hn

theorem visited_moves {g : CallGraph} {s t : CycleSearch} (hm : Moves g s t) {n : String}
    (hn : n ∈ s.visited) : n ∈ t.visited :=
  kept_moves (P := (n ∈ ·.visited)) (fun hm hn => visited_move hm hn) hm hn

theorem moves_finish {g : CallGraph} (hg : g.Consistent) {s : CycleSearch} (h : Tracked g s)
    (fuel : Nat) : Moves g s (finish g fuel s) := by
  induction fuel generalizing s with
  | zero => exact .refl
  | succ fuel ih =>
    rw [finish]
    split
    · exact .refl
    · rename_i hne
      have hm := move_step h (by simpa using hne)
      exact .head hm (ih (h.move hg hm))

theorem path_finish {g : CallGraph} (hg : g.Consistent) {s : CycleSearch} (h : Tracked g s)
    {fuel : Nat} (hfuel : work g s ≤ fuel) : (finish g fuel s).path = [] := by
  induction fuel generalizing s with
  | zero =>
    cases hp : s.path with
    | nil => rw [finish, hp]
    | cons f rest =>
      rw [work, hp] at hfuel
      simp at hfuel
  | succ fuel ih =>
    rw [finish]
    split
    · rename_i hp
      simpa using hp
    · rename_i hne
      have hne' : s.path ≠ [] := by simpa using hne
      have hm := move_step h hne'
      have hwork := work_move hg h hm hne'
      exact ih (h.move hg hm) (by omega)

/-- The steps granted suffice for all functions and all calls. -/
theorem work_le_enough {g : CallGraph} (hg : g.Consistent) {s : CycleSearch} (hp : s.path = []) :
    work g s ≤ enough g := by
  have hle : (g.nodes.toList.map (unmet g s.visited)).sum ≤
      (g.nodes.toList.map fun n => 1 + g.outDegree n).sum := by
    refine List.sum_le_sum fun n _ => ?_
    rw [unmet]
    split <;> omega
  have hsum : (g.nodes.toList.map fun n => 1 + g.outDegree n).sum = g.nodeCount + g.edgeCount := by
    rw [List.sum_map_add, ← hg.sum_outDegree, CallGraph.nodeCount,
      ← Std.ExtTreeSet.length_toList (t := g.nodes)]
    simp
  simp only [work, hp, List.map_nil, List.sum_nil, enough]
  omega

/-- They suffice as well for the search from one function not yet met. -/
theorem work_enter_le_enough {g : CallGraph} (hg : g.Consistent) {s : CycleSearch}
    (hp : s.path = []) {n : String} (hn : n ∈ g.nodes) (hv : n ∉ s.visited) :
    work g (enter g s n) ≤ enough g := by
  rw [work_enter hv hn]
  exact work_le_enough hg hp

theorem explore_of_visited (g : CallGraph) {s : CycleSearch} {n : String} (hv : n ∈ s.visited) :
    explore g s n = s := by
  simp [explore, hv]

theorem explore_of_not_visited (g : CallGraph) {s : CycleSearch} {n : String}
    (hv : n ∉ s.visited) : explore g s n = finish g (enough g) (enter g s n) := by
  simp [explore, hv]

theorem explore_spec {g : CallGraph} (hg : g.Consistent) {s : CycleSearch} (h : Tracked g s)
    (hp : s.path = []) {n : String} (hn : n ∈ g.nodes) :
    Moves g s (explore g s n) ∧ (explore g s n).path = [] ∧ n ∈ (explore g s n).visited := by
  by_cases hv : n ∈ s.visited
  · rw [explore_of_visited g hv]
    exact ⟨.refl, hp, hv⟩
  · have hm : Move g s (enter g s n) := .root hp hn hv
    have ht : Tracked g (enter g s n) := h.move hg hm
    have hrun := moves_finish hg ht (enough g)
    have hpath := path_finish hg ht (work_enter_le_enough hg hp hn hv)
    rw [explore_of_not_visited g hv]
    exact ⟨.head hm hrun, hpath, visited_moves hrun (by simp)⟩

theorem foldl_explore_spec {g : CallGraph} (hg : g.Consistent) {roots : List String}
    (hroots : ∀ n ∈ roots, n ∈ g.nodes) {s : CycleSearch} (h : Invariant g s) (hp : s.path = []) :
    Moves g s (roots.foldl (explore g) s) ∧ (roots.foldl (explore g) s).path = [] ∧
      ∀ n ∈ roots, n ∈ (roots.foldl (explore g) s).visited := by
  induction roots generalizing s with
  | nil => exact ⟨.refl, hp, by simp⟩
  | cons n roots ih =>
    obtain ⟨hm, hp', hn⟩ := explore_spec hg h.tracked hp (hroots n (by simp))
    obtain ⟨hms, hps, hns⟩ := ih (fun m hm => hroots m (by simp [hm])) (h.moves hg hm) hp'
    refine ⟨hm.trans hms, hps, ?_⟩
    intro m hmem
    rcases List.mem_cons.1 hmem with rfl | hmem
    · exact visited_moves hms hn
    · exact hns m hmem

/-- The search from all functions in ascending order. -/
def whole (g : CallGraph) : CycleSearch := g.nodes.toList.foldl (explore g) {}

theorem moves_whole {g : CallGraph} (hg : g.Consistent) : Moves g {} (whole g) :=
  (foldl_explore_spec hg (fun _ hn => Std.ExtTreeSet.mem_toList.1 hn) (.initial g) rfl).1

theorem invariant_whole {g : CallGraph} (hg : g.Consistent) : Invariant g (whole g) :=
  (Invariant.initial g).moves hg (moves_whole hg)

/-- In the end the path is empty and every function has been met. -/
theorem whole_spec {g : CallGraph} (hg : g.Consistent) :
    (whole g).path = [] ∧ ∀ n ∈ g.nodes, n ∈ (whole g).visited := by
  obtain ⟨-, hp, hall⟩ :=
    foldl_explore_spec hg (fun _ hn => Std.ExtTreeSet.mem_toList.1 hn) (.initial g) rfl
  exact ⟨hp, fun n hn => hall n (Std.ExtTreeSet.mem_toList.2 hn)⟩

/-- In the end every function has been left. -/
theorem settled_whole {g : CallGraph} (hg : g.Consistent) {n : String} (hn : n ∈ g.nodes) :
    (whole g).Settled n := by
  obtain ⟨hp, hall⟩ := whole_spec hg
  refine ⟨hall n hn, ?_⟩
  rw [(invariant_whole hg).tracked.mem_onPath, names, hp]
  simp

end CycleSearch

end CallAtlas.Graph
