import CallAtlas.Proofs.Graph.Search.Run
import Mathlib.Data.PFun

/-!
# The search as a recursion

The search for cycles keeps its path itself. Here it is written as the recursion that it stands for,
where the path is that of the calls of the recursion. The two find the same cycles in the same order:
from a function entered by the search to the moment in which it leaves that function, the search does
what one call of the recursion does. The calls nest no deeper than there are functions, and the search
needs no bound on its steps in order to end.
-/

namespace CallAtlas.Graph

/-- What the recursion has met and found so far. -/
structure Visits where
  visited : NameSet := ∅
  /-- The cycles found so far, in the order in which they were found. -/
  found : List (List String) := []

namespace Visits

/-- Takes the part of the path that begins with a function. The path lists its end first. -/
def emit (s : Visits) (path : List String) (name : String) : Visits :=
  { s with found := s.found ++ [name :: (path.takeWhile (· ≠ name)).reverse] }

/-- Meets a function at the end of a path: on the path it closes a cycle, otherwise it is visited unless
that has been done, and its callees are met in ascending order. The recursion gives up if its calls
nest deeper than a bound. -/
def meet (g : CallGraph) : Nat → List String → Visits → String → Option Visits
  | 0, _, _, _ => none
  | nesting + 1, path, s, name =>
    if name ∈ path then some (s.emit path name)
    else if s.visited.contains name then some s
    else
      (g.callees name).foldlM (meet g nesting (name :: path))
        { s with visited := s.visited.insert name }

section Meet

variable {g : CallGraph} {nesting : Nat} {path : List String} {s : Visits} {name : String}

theorem meet_of_mem (h : name ∈ path) :
    meet g (nesting + 1) path s name = some (s.emit path name) := by
  rw [meet, if_pos h]

theorem meet_of_visited (h : name ∉ path) (hv : name ∈ s.visited) :
    meet g (nesting + 1) path s name = some s := by
  rw [meet, if_neg h, if_pos (by simpa using hv)]

theorem meet_of_not_visited (h : name ∉ path) (hv : name ∉ s.visited) :
    meet g (nesting + 1) path s name =
      (g.callees name).foldlM (meet g nesting (name :: path))
        { s with visited := s.visited.insert name } := by
  rw [meet, if_neg h, if_neg (by simpa using hv)]

end Meet

end Visits

namespace CycleSearch

/-- Steps until the path is empty, however many steps that takes. -/
def loop (g : CallGraph) : CycleSearch →. CycleSearch :=
  PFun.fix fun s => Part.some (if s.path.isEmpty then .inl s else .inr (step g s))

/-- `explore` without a bound on the steps. -/
def exploreLoop (g : CallGraph) (s : CycleSearch) (root : String) : Part CycleSearch :=
  if s.visited.contains root then Part.some s else loop g (enter g s root)

end CycleSearch

namespace CallGraph

/-- The cycles that the recursion finds from all functions in ascending order, unless its calls nest
deeper than a bound. -/
def recursiveCycles (g : CallGraph) (nesting : Nat) : Option (List (List String)) :=
  (g.nodes.toList.foldlM (Visits.meet g nesting []) {}).map Visits.found

/-- The cycles that the search finds when nothing bounds its steps. -/
def loopCycles (g : CallGraph) : Part (List (List String)) :=
  (g.nodes.toList.foldlM (CycleSearch.exploreLoop g) {}).map fun s => s.found.reverse

end CallGraph

namespace CycleSearch

/-! ## Runs of the search -/

/-- The search goes on by steps as long as there is a path. -/
abbrev Steps (g : CallGraph) : CycleSearch → CycleSearch → Prop :=
  Relation.ReflTransGen fun s t => s.path ≠ [] ∧ step g s = t

theorem Tracked.steps {g : CallGraph} (hg : g.Consistent) {s t : CycleSearch} (h : Tracked g s)
    (hs : Steps g s t) : Tracked g t ∧ work g t ≤ work g s := by
  induction hs with
  | refl => exact ⟨h, le_rfl⟩
  | @tail u t _ hstep ih =>
    obtain ⟨hne, rfl⟩ := hstep
    obtain ⟨hu, hle⟩ := ih
    have hm := move_step hu hne
    have hwork := work_move hg hu hm hne
    exact ⟨hu.move hg hm, by omega⟩

theorem loop_of_path_nil (g : CallGraph) {s : CycleSearch} (h : s.path = []) :
    loop g s = Part.some s :=
  Part.eq_some_iff.2 (PFun.fix_stop (by simp [h]))

theorem loop_of_path_ne_nil (g : CallGraph) {s : CycleSearch} (h : s.path ≠ []) :
    loop g s = loop g (step g s) :=
  PFun.fix_fwd_eq (by simp [h])

theorem loop_of_steps {g : CallGraph} {s t : CycleSearch} (hs : Steps g s t) :
    loop g s = loop g t := by
  induction hs with
  | refl => rfl
  | tail _ hstep ih =>
    obtain ⟨hne, rfl⟩ := hstep
    rw [ih, loop_of_path_ne_nil g hne]

theorem steps_finish (g : CallGraph) (fuel : Nat) (s : CycleSearch) :
    Steps g s (finish g fuel s) := by
  induction fuel generalizing s with
  | zero => exact .refl
  | succ fuel ih =>
    rw [finish]
    split
    · exact .refl
    · rename_i hne
      exact .head ⟨by simpa using hne, rfl⟩ (ih (step g s))

/-- With steps enough for the work left, the bound makes no difference. -/
theorem loop_eq_finish {g : CallGraph} (hg : g.Consistent) {s : CycleSearch} (h : Tracked g s)
    {fuel : Nat} (hfuel : work g s ≤ fuel) : loop g s = Part.some (finish g fuel s) := by
  rw [loop_of_steps (steps_finish g fuel s), loop_of_path_nil g (path_finish hg h hfuel)]

/-! ## The recursion inside the search -/

/-- What the search has met and found, as the recursion keeps it. -/
def visits (s : CycleSearch) : Visits := ⟨s.visited, s.found.reverse⟩

theorem names_look {s : CycleSearch} {n c : String} {pending : List String} {rest : List Frame}
    (hp : s.path = ⟨n, c :: pending⟩ :: rest) (found : List (List String)) :
    ({ s with path := ⟨n, pending⟩ :: rest, found } : CycleSearch).names = s.names := by
  simp [names, hp]

/-- The recursion takes the same part of the path as the search. -/
theorem emit_eq {s : CycleSearch} {c : String} {inner outer : List String}
    (hnodup : s.names.Nodup) (hn : s.names = inner ++ c :: outer) :
    s.visits.emit s.names c = ⟨s.visited, s.found.reverse ++ [c :: inner.reverse]⟩ := by
  have hfresh : ∀ n ∈ inner, n ≠ c := by
    rintro n hmem rfl
    rw [hn, List.nodup_middle, List.nodup_cons] at hnodup
    exact hnodup.1 (List.mem_append_left _ hmem)
  have htake : s.names.takeWhile (· ≠ c) = inner := by
    rw [hn, List.takeWhile_append_of_pos (by simpa using hfresh)]
    simp
  rw [Visits.emit, htake]
  rfl

/-- A path through functions of the graph leaves room for one more call of the recursion. -/
theorem Tracked.length_names_le {g : CallGraph} {s : CycleSearch} (h : Tracked g s)
    (hnodes : ∀ n ∈ s.names, n ∈ g.nodes) : s.names.length ≤ g.nodeCount := by
  rw [CallGraph.nodeCount, ← Std.ExtTreeSet.length_toList]
  exact (List.subperm_of_subset h.nodup
    fun n hn => Std.ExtTreeSet.mem_toList.2 (hnodes n hn)).length_le

/-- A function at the end of the path will be left, and until then the search does what the recursion
does on the callees pending. The calls of the recursion need not nest deeper than a path can be
long. -/
theorem exists_left {g : CallGraph} (hg : g.Consistent) {s : CycleSearch} (h : Tracked g s)
    (hnodes : ∀ n ∈ s.names, n ∈ g.nodes) {n : String} {pending : List String} {rest : List Frame}
    (hp : s.path = ⟨n, pending⟩ :: rest) (nesting : Nat)
    (hnesting : g.nodeCount < nesting + s.names.length) :
    ∃ t, Steps g s t ∧ t.path = rest ∧
      pending.foldlM (Visits.meet g nesting s.names) s.visits = some t.visits := by
  induction hw : work g s using Nat.strong_induction_on generalizing s n pending rest nesting with
  | _ w ih =>
  have hne : s.path ≠ [] := by simp [hp]
  have hm := move_step h hne
  have hlt : work g (step g s) < w := by
    have := work_move hg h hm hne
    omega
  have ht : Tracked g (step g s) := h.move hg hm
  have hfirst : Steps g s (step g s) := .single ⟨hne, rfl⟩
  obtain ⟨nesting, rfl⟩ : ∃ k, nesting = k + 1 := by
    have := h.length_names_le hnodes
    exact Nat.exists_eq_succ_of_ne_zero (by omega)
  generalize step g s = u at hm hlt ht hfirst
  cases hm with
  | root hp' => exact absurd hp' hne
  | leave hp' =>
    cases hp.symm.trans hp'
    exact ⟨_, hfirst, rfl, rfl⟩
  | @call _ c pending _ hp' hv =>
    cases hp.symm.trans hp'
    have hnames := names_look hp s.found
    have hc : c ∉ s.names := fun hc => hv (h.visited c hc)
    have hcnodes : c ∈ g.nodes := (hg.ends (h.calls hg hp)).2
    -- the callee is left first, then the search goes on with the callees pending
    obtain ⟨t, hut, htpath, htvisits⟩ := ih _ hlt ht
      (by simpa [hnames] using ⟨hcnodes, hnodes⟩) rfl nesting
      (by rw [names_enter, hnames, List.length_cons]; omega) rfl
    obtain ⟨htt, htle⟩ := ht.steps hg hut
    have htnames : t.names = s.names := by rw [names, htpath, names, hp]; rfl
    obtain ⟨v, htv, hvpath, hvvisits⟩ := ih _ (by omega) htt (by simpa [htnames] using hnodes)
      htpath (nesting + 1) (by rwa [htnames]) rfl
    refine ⟨v, (hfirst.trans hut).trans htv, hvpath, ?_⟩
    have hmeet : Visits.meet g (nesting + 1) s.names s.visits c = some t.visits := by
      rw [Visits.meet_of_not_visited hc hv, ← htvisits, names_enter, hnames]
      rfl
    rw [List.foldlM_cons, hmeet, ← hvvisits, htnames]
    rfl
  | @close _ c pending inner outer _ hp' hc hn =>
    cases hp.symm.trans hp'
    have hnames := names_look hp ((c :: inner.reverse) :: s.found)
    obtain ⟨t, hut, htpath, htvisits⟩ := ih _ hlt ht (by simpa [hnames] using hnodes) rfl
      (nesting + 1) (by rwa [hnames]) rfl
    refine ⟨t, hfirst.trans hut, htpath, ?_⟩
    have hmeet : Visits.meet g (nesting + 1) s.names s.visits c =
        some ⟨s.visited, s.found.reverse ++ [c :: inner.reverse]⟩ := by
      rw [Visits.meet_of_mem ((h.mem_onPath c).1 hc), emit_eq h.nodup hn]
    rw [List.foldlM_cons, hmeet, ← htvisits, hnames, visits, List.reverse_cons]
    rfl
  | @pass _ c pending _ hp' hv hc =>
    cases hp.symm.trans hp'
    have hnames := names_look hp s.found
    obtain ⟨t, hut, htpath, htvisits⟩ := ih _ hlt ht (by simpa [hnames] using hnodes) rfl
      (nesting + 1) (by rwa [hnames]) rfl
    refine ⟨t, hfirst.trans hut, htpath, ?_⟩
    have hmeet : Visits.meet g (nesting + 1) s.names s.visits c = some s.visits :=
      Visits.meet_of_visited (fun hmem => hc ((h.mem_onPath c).2 hmem)) hv
    rw [List.foldlM_cons, hmeet, ← htvisits, hnames]
    rfl

/-! ## Searches from all functions -/

theorem loop_enter {g : CallGraph} (hg : g.Consistent) {s : CycleSearch} (h : Tracked g s)
    (hp : s.path = []) {n : String} (hn : n ∈ g.nodes) (hv : n ∉ s.visited) :
    loop g (enter g s n) = Part.some (explore g s n) := by
  rw [explore_of_not_visited g hv]
  exact loop_eq_finish hg (h.move hg (.root hp hn hv)) (work_enter_le_enough hg hp hn hv)

theorem exploreLoop_eq {g : CallGraph} (hg : g.Consistent) {s : CycleSearch} (h : Tracked g s)
    (hp : s.path = []) {n : String} (hn : n ∈ g.nodes) :
    exploreLoop g s n = Part.some (explore g s n) := by
  by_cases hv : n ∈ s.visited
  · rw [exploreLoop, if_pos (by simpa using hv), explore_of_visited g hv]
  · rw [exploreLoop, if_neg (by simpa using hv), loop_enter hg h hp hn hv]

/-- Exploring from a root is meeting it with nothing on the path. -/
theorem meet_eq_explore {g : CallGraph} (hg : g.Consistent) {nesting : Nat}
    (hnesting : g.nodeCount < nesting) {s : CycleSearch} (h : Tracked g s) (hp : s.path = [])
    {n : String} (hn : n ∈ g.nodes) :
    Visits.meet g nesting [] s.visits n = some (explore g s n).visits := by
  obtain ⟨nesting, rfl⟩ := Nat.exists_eq_succ_of_ne_zero (Nat.ne_zero_of_lt hnesting)
  by_cases hv : n ∈ s.visited
  · rw [explore_of_visited g hv]
    exact Visits.meet_of_visited List.not_mem_nil hv
  · have ht : Tracked g (enter g s n) := h.move hg (.root hp hn hv)
    have hnames : (enter g s n).names = [n] := by simp [names, hp]
    obtain ⟨t, hst, htpath, htvisits⟩ := exists_left hg ht (by simpa [hnames] using hn)
      (path_enter g s n) nesting (by simpa [hnames] using hnesting)
    have ht' : t = explore g s n := by
      have hloop := loop_enter hg h hp hn hv
      rw [loop_of_steps hst, loop_of_path_nil g (htpath.trans hp)] at hloop
      exact Part.some_injective hloop
    rw [Nat.succ_eq_add_one, Visits.meet_of_not_visited List.not_mem_nil hv, ← ht', ← htvisits,
      hnames]
    rfl

/-- Whatever follows the search root by root comes to where the search comes. -/
theorem foldlM_roots {g : CallGraph} (hg : g.Consistent) {β : Type} {m : Type → Type} [Monad m]
    [LawfulMonad m] (view : CycleSearch → β) (f : β → String → m β)
    (hf : ∀ {s}, Tracked g s → s.path = [] → ∀ {n}, n ∈ g.nodes →
      f (view s) n = pure (view (explore g s n)))
    {roots : List String} (hroots : ∀ n ∈ roots, n ∈ g.nodes) {s : CycleSearch} (h : Invariant g s)
    (hp : s.path = []) :
    roots.foldlM f (view s) = pure (view (roots.foldl (explore g) s)) := by
  induction roots generalizing s with
  | nil => rfl
  | cons n roots ih =>
    have hn : n ∈ g.nodes := hroots n (by simp)
    obtain ⟨hm, hp', -⟩ := explore_spec hg h.tracked hp hn
    rw [List.foldlM_cons, hf h.tracked hp hn, pure_bind, List.foldl_cons]
    exact ih (fun m hm => hroots m (by simp [hm])) (h.moves hg hm) hp'

end CycleSearch

namespace CallGraph

section Consistent

variable {g : CallGraph} (hg : g.Consistent)

include hg

theorem loopCycles_eq : g.loopCycles = Part.some g.cycles := by
  have hrun := CycleSearch.foldlM_roots hg id (CycleSearch.exploreLoop g)
    (CycleSearch.exploreLoop_eq hg) (fun _ hn => Std.ExtTreeSet.mem_toList.1 hn) (.initial g) rfl
  rw [loopCycles]
  exact (congrArg (Part.map fun s => s.found.reverse) hrun).trans (Part.map_some _ _)

theorem recursiveCycles_eq {nesting : Nat} (hnesting : g.nodeCount < nesting) :
    g.recursiveCycles nesting = some g.cycles := by
  have hrun := CycleSearch.foldlM_roots hg CycleSearch.visits (Visits.meet g nesting [])
    (CycleSearch.meet_eq_explore hg hnesting) (fun _ hn => Std.ExtTreeSet.mem_toList.1 hn)
    (.initial g) rfl
  exact congrArg (Option.map Visits.found) hrun

end Consistent

/-- The search in a graph under construction ends though nothing bounds its steps, and it returns the
list of cycles that the recursion returns, whose calls nest no deeper than a path that goes through all
functions and one call more. Both take the functions, and the callees of each function, in ascending
order. -/
theorem cycles_recursive (steps : List Insertion) :
    let g := build steps
    g.loopCycles = Part.some g.cycles ∧
      (∀ nesting, g.nodeCount < nesting → g.recursiveCycles nesting = some g.cycles) ∧
      g.nodes.toList.Pairwise (· < ·) ∧
      ∀ n, (g.callees n).Pairwise (· < ·) ∧ ∀ m, m ∈ g.callees n ↔ g.Calls n m := by
  intro g
  have hg : g.Consistent := build_consistent steps
  refine ⟨loopCycles_eq hg, fun _ => recursiveCycles_eq hg, NameSet.ascending g.nodes,
    fun n => ?_⟩
  exact ⟨NameSet.ascending _, hg.mem_callees n⟩

end CallGraph

end CallAtlas.Graph
