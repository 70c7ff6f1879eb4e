import CallAtlas.Proofs.Graph.Search.Moments
import CallAtlas.Proofs.Graph.Search.Recursion

/-!
# The search keeps its collections in step

Whenever the search looks at its path, the functions on the path, those that count as being on it and
those that have been met fit together, so that a callee on the path is found there and no cycle is
dropped. Over the whole search every function is entered by one of the moves and no other, and every
call is looked at by one and no other.
-/

namespace CallAtlas.Graph

namespace CycleSearch

/-- The path, the set of the functions on it and the set of those met are in step. -/
structure InStep (g : CallGraph) (s : CycleSearch) : Prop where
  nodup : s.names.Nodup
  mem_onPath : ∀ n, n ∈ s.onPath ↔ n ∈ s.names
  visited : ∀ n ∈ s.onPath, n ∈ s.visited
  /-- From its beginning on the path follows calls. -/
  chain : s.names.reverse.IsChain g.Calls
  callee_visited : ∀ {n m}, n ∈ s.visited → n ∉ s.onPath → g.Calls n m → m ∈ s.visited
  /-- A callee that counts as being on the path is found there, and its cycle is kept. -/
  closes : ∀ {n c pending rest}, s.path = ⟨n, c :: pending⟩ :: rest → c ∈ s.onPath →
    ∃ cycle, cycleBack c [] (⟨n, pending⟩ :: rest) = some cycle ∧
      (step g s).found = cycle :: s.found

/-- The search puts a function at the end of the path with its next move. -/
def Enters (g : CallGraph) (k : Nat) (n : String) : Prop :=
  (moment g (k + 1)).names = n :: (moment g k).names

/-- The search takes a call from those pending at the end of the path with its next move. -/
def LooksAt (g : CallGraph) (k : Nat) (a b : String) : Prop :=
  ∃ pending rest, (moment g k).path = ⟨a, b :: pending⟩ :: rest

/-- A call is behind the search: its caller has been met, and it is not pending any more. -/
def Looked (a b : String) (s : CycleSearch) : Prop :=
  a ∈ s.visited ∧ ∀ f ∈ s.path, f.name = a → b ∉ f.pending

variable {g : CallGraph} {s t : CycleSearch} {a b n : String}

theorem Invariant.inStep (h : Invariant g s) : InStep g s where
  nodup := h.tracked.nodup
  mem_onPath := h.tracked.mem_onPath
  visited n hn := h.tracked.visited n ((h.tracked.mem_onPath n).1 hn)
  chain := List.isChain_reverse.2 h.tracked.chain
  callee_visited hv ho hcall := h.settling.callee_visited ⟨hv, ho⟩ hcall
  closes := by
    intro n c pending rest hp hc
    have hname : c ∈ s.names := (h.tracked.mem_onPath c).1 hc
    have hpath : c ∈ (⟨n, pending⟩ :: rest : List Frame).map Frame.name := by
      simpa [names_of_path hp] using hname
    obtain ⟨inner, outer, -, hback⟩ := cycleBack_of_mem hpath []
    have hv : c ∈ s.visited := h.tracked.visited c hname
    have hs : step g s = { s with
        path := ⟨n, pending⟩ :: rest, found := (c :: (inner.reverse ++ [])) :: s.found } := by
      simp [step, hp, hv, hc, hback]
    exact ⟨_, hback, by rw [hs]⟩

/-! ## What a move enters and what it looks at -/

/-- A function is put at the end of the path when it is met, and at no other time. -/
theorem Move.names_eq_cons_iff (hm : Move g s t) :
    t.names = n :: s.names ↔ n ∉ s.visited ∧ n ∈ t.visited := by
  have henter {c : String} (hv : c ∉ s.visited) :
      c :: s.names = n :: s.names ↔ n ∉ s.visited ∧ (n = c ∨ n ∈ s.visited) := by
    constructor
    · intro heq
      obtain rfl := (List.cons.inj heq).1
      exact ⟨hv, .inl rfl⟩
    · rintro ⟨hn, rfl | hn'⟩
      · rfl
      · exact absurd hn' hn
  have hother {names : List String} (hle : names.length ≤ s.names.length) :
      names = n :: s.names ↔ n ∉ s.visited ∧ n ∈ s.visited := by
    refine iff_of_false (fun heq => ?_) fun h => h.1 h.2
    rw [heq, List.length_cons] at hle
    omega
  cases hm with
  | root hp hn hv => simpa using henter hv
  | leave hp => exact hother (by simp [names, hp])
  | @call m c pending rest hp hv =>
    have hnames : ({ s with path := ⟨m, pending⟩ :: rest } : CycleSearch).names = s.names := by
      simp [names, hp]
    rw [names_enter, mem_visited_enter, hnames]
    exact henter hv
  | close hp hc hn => exact hother (by simp [names, hp])
  | pass hp hv hc => exact hother (by simp [names, hp])

theorem Move.mem_nodes (hg : g.Consistent) (ht : Tracked g s) (hm : Move g s t)
    (hn : n ∉ s.visited) (hn' : n ∈ t.visited) : n ∈ g.nodes := by
  cases hm with
  | root hp hmem hv =>
    obtain rfl := ((mem_visited_enter g s _ n).1 hn').resolve_right hn
    exact hmem
  | call hp hv =>
    obtain rfl := ((mem_visited_enter g _ _ n).1 hn').resolve_right hn
    exact (hg.ends (ht.calls hg hp)).2
  | leave hp => exact absurd hn' hn
  | close hp hc hs => exact absurd hn' hn
  | pass hp hv hc => exact absurd hn' hn

/-- What is behind the search stays behind it. -/
theorem looked_move (hm : Move g s t) (h : Looked a b s) : Looked a b t := by
  obtain ⟨ha, hlooked⟩ := h
  have hlook {c m : String} {pending : List String} {rest : List Frame}
      (hp : s.path = ⟨m, c :: pending⟩ :: rest) :
      ∀ f ∈ (⟨m, pending⟩ :: rest : List Frame), f.name = a → b ∉ f.pending := by
    intro f hf hname hb
    rcases List.mem_cons.1 hf with rfl | hf
    · exact hlooked ⟨m, c :: pending⟩ (by simp [hp]) hname (List.mem_cons_of_mem c hb)
    · exact hlooked f (mem_path_of_rest hp hf) hname hb
  -- whatever is entered has not been met before, so it is not the caller
  have henter {c : String} {path : List Frame} (hv : c ∉ s.visited)
      (hpath : ∀ f ∈ path, f.name = a → b ∉ f.pending) :
      ∀ f ∈ (⟨c, g.callees c⟩ :: path : List Frame), f.name = a → b ∉ f.pending := by
    intro f hf hname
    rcases List.mem_cons.1 hf with rfl | hf
    · obtain rfl : c = a := hname
      exact absurd ha hv
    · exact hpath f hf hname
  cases hm with
  | root hp hn hv => exact ⟨by simp [ha], henter hv hlooked⟩
  | leave hp => exact ⟨ha, fun f hf => hlooked f (mem_path_of_rest hp hf)⟩
  | call hp hv => exact ⟨by simp [ha], henter hv (hlook hp)⟩
  | close hp hc hn => exact ⟨ha, hlook hp⟩
  | pass hp hv hc => exact ⟨ha, hlook hp⟩

/-- A call is taken by the move that puts it behind the search, and by no other. -/
theorem Move.takes_iff (hg : g.Consistent) (ht : Tracked g s) (hm : Move g s t)
    (hab : g.Calls a b) :
    (∃ pending rest, s.path = ⟨a, b :: pending⟩ :: rest) ↔ ¬ Looked a b s ∧ Looked a b t := by
  constructor
  · rintro ⟨pending, rest, hp⟩
    have hend : (⟨a, b :: pending⟩ : Frame) ∈ s.path := by simp [hp]
    have ha : a ∈ s.visited := ht.visited a (by simp [names_of_path hp])
    -- the callees of a function are different, and so are the functions on the path
    have hlook : ∀ f ∈ (⟨a, pending⟩ :: rest : List Frame), f.name = a → b ∉ f.pending := by
      intro f hf hname
      rcases List.mem_cons.1 hf with rfl | hf
      · have hnodup : (b :: pending).Nodup :=
          (NameSet.nodup _).sublist (ht.pending _ hend).sublist
        exact (List.nodup_cons.1 hnodup).1
      · have hnodup := ht.nodup
        rw [names_of_path hp, List.nodup_cons] at hnodup
        exact absurd (List.mem_map.2 ⟨f, hf, hname⟩) hnodup.1
    refine ⟨fun h => h.2 _ hend rfl List.mem_cons_self, visited_move hm ha, ?_⟩
    cases hm with
    | root hp' => cases hp.symm.trans hp'
    | leave hp' => cases hp.symm.trans hp'
    | call hp' hv =>
      cases hp.symm.trans hp'
      intro f hf hname
      rcases List.mem_cons.1 hf with rfl | hf
      · obtain rfl : b = a := hname
        exact absurd ha hv
      · exact hlook f hf hname
    | close hp' hc hn =>
      cases hp.symm.trans hp'
      exact hlook
    | pass hp' hv hc =>
      cases hp.symm.trans hp'
      exact hlook
  · rintro ⟨hnot, ha, hlooked⟩
    -- if the call that is taken is another one, this one was behind the search before
    have hlook {n c : String} {pending : List String} {rest : List Frame}
        (hp : s.path = ⟨n, c :: pending⟩ :: rest) (ha : a ∈ s.visited)
        (hlooked : ∀ f ∈ (⟨n, pending⟩ :: rest : List Frame), f.name = a → b ∉ f.pending) :
        ∃ pending rest, s.path = ⟨a, b :: pending⟩ :: rest := by
      by_contra hnone
      refine hnot ⟨ha, fun f hf hname hb => ?_⟩
      rw [hp] at hf
      rcases List.mem_cons.1 hf with rfl | hf
      · obtain rfl : n = a := hname
        rcases List.mem_cons.1 hb with rfl | hb
        · exact hnone ⟨pending, rest, hp⟩
        · exact hlooked ⟨n, pending⟩ List.mem_cons_self rfl hb
      · exact hlooked f (List.mem_cons_of_mem _ hf) hname hb
    -- at a function that has just been entered all calls are pending
    have hentered {c : String} {path : List Frame} (ha : a = c ∨ a ∈ s.visited)
        (hlooked : ∀ f ∈ (⟨c, g.callees c⟩ :: path : List Frame), f.name = a → b ∉ f.pending) :
        a ∈ s.visited := by
      refine ha.resolve_left ?_
      rintro rfl
      exact hlooked _ List.mem_cons_self rfl ((hg.mem_callees a b).2 hab)
    cases hm with
    | root hp hn hv =>
      have ha' := hentered ((mem_visited_enter g s _ a).1 ha) hlooked
      exact absurd ⟨ha', fun f hf => hlooked f (List.mem_cons_of_mem _ hf)⟩ hnot
    | @leave n rest hp =>
      refine absurd ⟨ha, fun f hf hname => ?_⟩ hnot
      rw [hp] at hf
      rcases List.mem_cons.1 hf with rfl | hf
      · exact List.not_mem_nil
      · exact hlooked f hf hname
    | call hp hv =>
      have ha' := hentered ((mem_visited_enter g _ _ a).1 ha) hlooked
      exact hlook hp ha' fun f hf => hlooked f (List.mem_cons_of_mem _ hf)
    | close hp hc hn => exact hlook hp ha hlooked
    | pass hp hv hc => exact hlook hp ha hlooked

/-! ## Over the whole search -/

section Consistent

variable (hg : g.Consistent)

include hg

theorem enters_iff {k : Nat} :
    Enters g k n ↔ n ∉ (moment g k).visited ∧ n ∈ (moment g (k + 1)).visited := by
  constructor
  · intro h
    have hm := move_turn hg (P := (·.names ≠ (moment g k).names)) (fun hne => hne rfl)
      fun heq => List.cons_ne_self n _ (h.symm.trans heq)
    exact hm.names_eq_cons_iff.1 h
  · rintro ⟨hn, hn'⟩
    have hm := move_turn hg (P := (n ∈ ·.visited)) hn hn'
    exact hm.names_eq_cons_iff.2 ⟨hn, hn'⟩

theorem mem_nodes_of_enters {k : Nat} (h : Enters g k n) : n ∈ g.nodes := by
  obtain ⟨hn, hn'⟩ := (enters_iff hg).1 h
  have hm := move_turn hg (P := (n ∈ ·.visited)) hn hn'
  exact hm.mem_nodes hg (invariant_moment hg k).tracked hn hn'

theorem existsUnique_enters (hn : n ∈ g.nodes) : ∃! k, Enters g k n := by
  simp only [enters_iff hg]
  exact existsUnique_turn hg (P := (n ∈ ·.visited)) Std.ExtTreeSet.not_mem_empty
    (fun hm hn => visited_move hm hn) ((whole_spec hg).2 n hn)

theorem looksAt_iff {k : Nat} (hab : g.Calls a b) :
    LooksAt g k a b ↔ ¬ Looked a b (moment g k) ∧ Looked a b (moment g (k + 1)) := by
  have ht := (invariant_moment hg k).tracked
  constructor
  · intro h
    obtain ⟨pending, rest, hp⟩ := h
    have hne : (moment g k).path ≠ [] := by simp [hp]
    have hm := move_step ht hne
    rw [← next_of_path_ne_nil g hne, ← moment_succ] at hm
    exact (hm.takes_iff hg ht hab).1 ⟨pending, rest, hp⟩
  · rintro ⟨hn, hn'⟩
    exact ((move_turn hg hn hn').takes_iff hg ht hab).2 ⟨hn, hn'⟩

theorem calls_of_looksAt {k : Nat} (h : LooksAt g k a b) : g.Calls a b := by
  obtain ⟨pending, rest, hp⟩ := h
  exact (invariant_moment hg k).tracked.calls hg hp

theorem existsUnique_looksAt (hab : g.Calls a b) : ∃! k, LooksAt g k a b := by
  have hend : Looked a b (whole g) := by
    obtain ⟨hp, hall⟩ := whole_spec hg
    exact ⟨hall a (hg.ends hab).1, by simp [hp]⟩
  simp only [looksAt_iff hg hab]
  exact existsUnique_turn hg (fun h => Std.ExtTreeSet.not_mem_empty h.1) looked_move hend

/-- When the search is through with some roots, nothing is on the path or counts as being on it. -/
theorem foldl_explore_done {before after : List String}
    (hnodes : g.nodes.toList = before ++ after) :
    (before.foldl (explore g) {}).path = [] ∧ (before.foldl (explore g) {}).onPath = ∅ ∧
      ∀ n ∈ before, n ∈ (before.foldl (explore g) {}).visited := by
  have hmem : ∀ n ∈ before, n ∈ g.nodes := fun n hn =>
    Std.ExtTreeSet.mem_toList.1 (by simp [hnodes, hn])
  obtain ⟨hm, hp, hbefore⟩ := foldl_explore_spec hg hmem (Invariant.initial g) rfl
  have ht : Tracked g (before.foldl (explore g) {}) :=
    ((Invariant.initial g).moves hg hm).tracked
  refine ⟨hp, Std.ExtTreeSet.eq_empty_iff_forall_not_mem.2 fun n hn => ?_, hbefore⟩
  rw [ht.mem_onPath, names, hp] at hn
  exact absurd hn List.not_mem_nil

/-- The search comes to the beginning of each of its loops, and to each of their turns. -/
theorem exists_moment_eq_finish {before after : List String} {root : String}
    (hnodes : g.nodes.toList = before ++ root :: after)
    (hroot : root ∉ (before.foldl (explore g) {}).visited) (turns : Nat) :
    ∃ k, moment g k = finish g turns (enter g (before.foldl (explore g) {}) root) := by
  have hsplit : g.nodes.toList = [] ++ before ++ root :: after := by simpa using hnodes
  obtain ⟨i, hi⟩ := exists_iterate_foldl_explore hg hsplit (Invariant.initial g) rfl (by simp)
  obtain ⟨j, hj⟩ := exists_iterate_finish g turns (enter g (before.foldl (explore g) {}) root)
  obtain ⟨hp, -, hbefore⟩ := foldl_explore_done hg hnodes
  have henter := next_of_path_nil g hp hnodes hbefore hroot
  refine ⟨j + 1 + i, ?_⟩
  rw [moment, Function.iterate_add_apply, hi, Function.iterate_succ_apply, henter, hj]

end Consistent

end CycleSearch

namespace CallGraph

open CycleSearch

/-- The search for cycles in a graph under construction keeps its collections in step at every moment,
and each turn of its loops is one of these moments. When it is through with a root, nothing counts as
being on the path. It enters every function and looks at every call exactly once, and it ends though
nothing bounds its steps. -/
theorem search_in_step (steps : List Insertion) :
    let g := build steps
    (∀ k, InStep g (moment g k)) ∧
    (∀ before root after, g.nodes.toList = before ++ root :: after →
      root ∉ (before.foldl (explore g) {}).visited → ∀ turns,
        ∃ k, moment g k = finish g turns (enter g (before.foldl (explore g) {}) root)) ∧
    (∀ before after, g.nodes.toList = before ++ after →
      (before.foldl (explore g) {}).path = [] ∧ (before.foldl (explore g) {}).onPath = ∅) ∧
    (∀ k n, Enters g k n → n ∈ g.nodes) ∧ (∀ n ∈ g.nodes, ∃! k, Enters g k n) ∧
    (∀ k a b, LooksAt g k a b → g.Calls a b) ∧ (∀ a b, g.Calls a b → ∃! k, LooksAt g k a b) ∧
    (∃ last, ∀ k, last ≤ k → moment g k = whole g) ∧ g.loopCycles = Part.some g.cycles := by
  intro g
  have hg : g.Consistent := build_consistent steps
  refine ⟨fun k => (invariant_moment hg k).inStep,
    fun _ _ _ hnodes hroot => exists_moment_eq_finish hg hnodes hroot, fun before after hnodes => ?_,
    fun _ _ => mem_nodes_of_enters hg, fun _ => existsUnique_enters hg,
    fun _ _ _ => calls_of_looksAt hg, fun _ _ => existsUnique_looksAt hg,
    moment_eq_whole hg, loopCycles_eq hg⟩
  obtain ⟨hp, hempty, -⟩ := foldl_explore_done hg hnodes
  exact ⟨hp, hempty⟩

end CallGraph

end CallAtlas.Graph
