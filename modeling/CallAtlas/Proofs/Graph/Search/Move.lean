import CallAtlas.Graph.Cycles
import CallAtlas.Proofs.Graph.Queries
import Mathlib.Data.List.Chain

/-!
# Moves of the search for cycles

`Move` says all that the search can do: enter a function from outside or along a call, leave the end
of the path, close a cycle, or pass over a call. `Tracked` ties the path to the two sets kept beside
it; every move keeps it, and with it each step of the search is a move. In particular a callee that
counts as being on the path is found there.
-/

namespace CallAtlas.Graph

namespace CycleSearch

/-- The functions on the path, its end first. -/
def names (s : CycleSearch) : List String := s.path.map Frame.name

/-- A move of the search. -/
inductive Move (g : CallGraph) (s : CycleSearch) : CycleSearch → Prop
  | root {n : String} (hp : s.path = []) (hn : n ∈ g.nodes) (hv : n ∉ s.visited) :
      Move g s (enter g s n)
  | leave {n : String} {rest : List Frame} (hp : s.path = ⟨n, []⟩ :: rest) :
      Move g s { s with onPath := s.onPath.erase n, path := rest }
  | call {n c : String} {pending : List String} {rest : List Frame}
      (hp : s.path = ⟨n, c :: pending⟩ :: rest) (hv : c ∉ s.visited) :
      Move g s (enter g { s with path := ⟨n, pending⟩ :: rest } c)
  | close {n c : String} {pending inner outer : List String} {rest : List Frame}
      (hp : s.path = ⟨n, c :: pending⟩ :: rest) (hc : c ∈ s.onPath)
      (hn : s.names = inner ++ c :: outer) :
      Move g s { s with
        path := ⟨n, pending⟩ :: rest, found := (c :: inner.reverse) :: s.found }
  | pass {n c : String} {pending : List String} {rest : List Frame}
      (hp : s.path = ⟨n, c :: pending⟩ :: rest) (hv : c ∈ s.visited) (hc : c ∉ s.onPath) :
      Move g s { s with path := ⟨n, pending⟩ :: rest }

/-- The path and the two sets are in step. The path follows calls, and what is pending at a function
is a rest of its callees. -/
structure Tracked (g : CallGraph) (s : CycleSearch) : Prop where
  nodup : s.names.Nodup
  mem_onPath : ∀ n, n ∈ s.onPath ↔ n ∈ s.names
  visited : ∀ n ∈ s.names, n ∈ s.visited
  chain : s.names.IsChain (fun inner outer => g.Calls outer inner)
  pending : ∀ f ∈ s.path, f.pending <:+ g.callees f.name

theorem names_of_path {s : CycleSearch} {n : String} {pending : List String} {rest : List Frame}
    (hp : s.path = ⟨n, pending⟩ :: rest) : s.names = n :: rest.map Frame.name := by
  simp [names, hp]

theorem mem_path_of_rest {s : CycleSearch} {e f : Frame} {rest : List Frame}
    (hp : s.path = e :: rest) (hf : f ∈ rest) : f ∈ s.path := by
  rw [hp]
  exact List.mem_cons_of_mem e hf

@[simp] theorem names_enter (g : CallGraph) (s : CycleSearch) (c : String) :
    (enter g s c).names = c :: s.names := rfl

@[simp] theorem path_enter (g : CallGraph) (s : CycleSearch) (c : String) :
    (enter g s c).path = ⟨c, g.callees c⟩ :: s.path := rfl

@[simp] theorem found_enter (g : CallGraph) (s : CycleSearch) (c : String) :
    (enter g s c).found = s.found := rfl

@[simp] theorem mem_visited_enter (g : CallGraph) (s : CycleSearch) (c m : String) :
    m ∈ (enter g s c).visited ↔ m = c ∨ m ∈ s.visited := by
  simp only [enter, Std.ExtTreeSet.mem_insert, Std.compare_eq_iff_eq]
  rw [eq_comm]

@[simp] theorem mem_onPath_enter (g : CallGraph) (s : CycleSearch) (c m : String) :
    m ∈ (enter g s c).onPath ↔ m = c ∨ m ∈ s.onPath := by
  simp only [enter, Std.ExtTreeSet.mem_insert, Std.compare_eq_iff_eq]
  rw [eq_comm]

/-! ## Each step is a move -/

/-- Going back along the path gathers the functions as far as the one looked for. -/
theorem cycleBack_of_mem {c : String} {path : List Frame} (hc : c ∈ path.map Frame.name)
    (gathered : List String) :
    ∃ inner outer, path.map Frame.name = inner ++ c :: outer ∧
      cycleBack c gathered path = some (c :: (inner.reverse ++ gathered)) := by
  induction path generalizing gathered with
  | nil => simp at hc
  | cons f rest ih =>
    by_cases hf : f.name = c
    · exact ⟨[], rest.map Frame.name, by simp [hf], by simp [cycleBack, hf]⟩
    · have hc' : c ∈ rest.map Frame.name := by simpa [Ne.symm hf] using hc
      obtain ⟨inner, outer, hn, hb⟩ := ih hc' (f.name :: gathered)
      exact ⟨f.name :: inner, outer, by simp [hn], by simp [cycleBack, hf, hb]⟩

theorem move_step {g : CallGraph} {s : CycleSearch} (h : Tracked g s) (hne : s.path ≠ []) :
    Move g s (step g s) := by
  match hp : s.path with
  | [] => exact absurd hp hne
  | ⟨n, []⟩ :: rest =>
    have hs : step g s = { s with onPath := s.onPath.erase n, path := rest } := by
      simp [step, hp]
    rw [hs]
    exact .leave hp
  | ⟨n, c :: pending⟩ :: rest =>
    by_cases hv : c ∈ s.visited
    · by_cases hc : c ∈ s.onPath
      · have hmem : c ∈ (⟨n, pending⟩ :: rest : List Frame).map Frame.name := by
          simpa [names_of_path hp] using (h.mem_onPath c).1 hc
        obtain ⟨inner, outer, hn, hb⟩ := cycleBack_of_mem hmem []
        have hs : step g s = { s with
            path := ⟨n, pending⟩ :: rest, found := (c :: inner.reverse) :: s.found } := by
          simp [step, hp, hv, hc, hb]
        rw [hs]
        exact .close hp hc (by simpa [names_of_path hp] using hn)
      · have hs : step g s = { s with path := ⟨n, pending⟩ :: rest } := by
          simp [step, hp, hv, hc]
        rw [hs]
        exact .pass hp hv hc
    · have hs : step g s = enter g { s with path := ⟨n, pending⟩ :: rest } c := by
        simp [step, hp, hv]
      rw [hs]
      exact .call hp hv

/-! ## Every move keeps the path in step -/

theorem Tracked.initial (g : CallGraph) : Tracked g {} where
  nodup := List.nodup_nil
  mem_onPath n := by simp [names]
  visited n hn := by simp [names] at hn
  chain := List.isChain_nil
  pending f hf := by simp at hf

/-- Passing over a callee leaves a rest of the callees. -/
theorem Tracked.pending_tail {g : CallGraph} {s : CycleSearch} (h : Tracked g s) {n c : String}
    {pending : List String} {rest : List Frame} (hp : s.path = ⟨n, c :: pending⟩ :: rest) :
    ∀ f ∈ (⟨n, pending⟩ :: rest : List Frame), f.pending <:+ g.callees f.name := by
  intro f hf
  rcases List.mem_cons.1 hf with rfl | hf
  · exact (List.suffix_cons c pending).trans (h.pending ⟨n, c :: pending⟩ (by simp [hp]))
  · exact h.pending f (mem_path_of_rest hp hf)

theorem Tracked.calls {g : CallGraph} (hg : g.Consistent) {s : CycleSearch} (h : Tracked g s)
    {n c : String} {pending : List String} {rest : List Frame}
    (hp : s.path = ⟨n, c :: pending⟩ :: rest) : g.Calls n c := by
  have hsuffix := h.pending ⟨n, c :: pending⟩ (by simp [hp])
  exact (hg.mem_callees n c).1 (hsuffix.subset (by simp))

/-- Only what is pending at the end of the path may change. -/
theorem Tracked.look {g : CallGraph} {s : CycleSearch} (h : Tracked g s) {n c : String}
    {pending : List String} {rest : List Frame} (hp : s.path = ⟨n, c :: pending⟩ :: rest)
    (found : List (List String)) :
    Tracked g { s with path := ⟨n, pending⟩ :: rest, found } := by
  have hnames : { s with path := ⟨n, pending⟩ :: rest, found : CycleSearch }.names = s.names := by
    simp [names, hp]
  constructor
  · rw [hnames]; exact h.nodup
  · rw [hnames]; exact h.mem_onPath
  · rw [hnames]; exact h.visited
  · rw [hnames]; exact h.chain
  · exact h.pending_tail hp

/-- A function is entered from nowhere or from the end of the path. -/
theorem Tracked.enter {g : CallGraph} {s : CycleSearch} (h : Tracked g s) {c : String}
    (hv : c ∉ s.visited) (hcalls : ∀ n ∈ s.names.head?, g.Calls n c) : Tracked g (enter g s c) where
  nodup := List.nodup_cons.2 ⟨fun hc => hv (h.visited c hc), h.nodup⟩
  mem_onPath m := by simp [h.mem_onPath]
  visited m hm := by
    rcases List.mem_cons.1 hm with rfl | hm
    · simp
    · simp [h.visited m hm]
  chain := List.isChain_cons.2 ⟨hcalls, h.chain⟩
  pending f hf := by
    rcases List.mem_cons.1 hf with rfl | hf
    · exact List.suffix_refl _
    · exact h.pending f hf

theorem Tracked.leave {g : CallGraph} {s : CycleSearch} (h : Tracked g s) {n : String}
    {rest : List Frame} (hp : s.path = ⟨n, []⟩ :: rest) :
    Tracked g { s with onPath := s.onPath.erase n, path := rest } := by
  have hnames := names_of_path hp
  have hnd : n ∉ rest.map Frame.name ∧ (rest.map Frame.name).Nodup := by
    simpa [hnames] using h.nodup
  constructor
  · exact hnd.2
  · intro m
    rw [Std.ExtTreeSet.mem_erase, h.mem_onPath, hnames, List.mem_cons]
    show _ ↔ m ∈ rest.map Frame.name
    constructor
    · rintro ⟨hne, rfl | hm⟩
      · exact absurd Std.ReflCmp.compare_self hne
      · exact hm
    · intro hm
      refine ⟨?_, .inr hm⟩
      intro heq
      rw [Std.compare_eq_iff_eq] at heq
      exact hnd.1 (heq ▸ hm)
  · intro m hm
    refine h.visited m ?_
    rw [hnames]
    exact List.mem_cons_of_mem n hm
  · have hchain := h.chain
    rw [hnames] at hchain
    exact hchain.tail
  · intro f hf
    exact h.pending f (mem_path_of_rest hp hf)

theorem Tracked.move {g : CallGraph} (hg : g.Consistent) {s t : CycleSearch} (h : Tracked g s)
    (hm : Move g s t) : Tracked g t := by
  cases hm with
  | root hp hn hv => exact h.enter hv (by simp [names, hp])
  | leave hp => exact h.leave hp
  | @call n c pending rest hp hv =>
    refine (h.look hp s.found).enter hv ?_
    intro m hm
    have hmn : n = m := by simpa [names] using hm
    exact hmn ▸ h.calls hg hp
  | close hp hc hn => exact h.look hp _
  | pass hp hv hc => exact h.look hp _

end CycleSearch

end CallAtlas.Graph
