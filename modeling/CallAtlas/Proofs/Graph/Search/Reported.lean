import CallAtlas.Listing.Report
import CallAtlas.Proofs.Graph.Search.Cycles
import CallAtlas.Proofs.Graph.Search.Moments

/-!
# Functions of the cycles reported

A cycle is found whenever a call leads back to the path. A call to a function that the search has left
finds none, so that a function may call itself by way of others and yet be in no cycle found. That
happens exactly if each of its closed walks goes through a function that the search has left before.
Some function of the same group is then found in its place.
-/

namespace CallAtlas.Graph

open Relation

namespace CycleSearch

/-- The search has met `f` after `s₀` and has not left it. A function met since has been found in a
cycle with `f` if it calls `f`, or a function on the path before `f`, and the call has been looked
at. -/
structure Below (g : CallGraph) (f : String) (s₀ s : CycleSearch) : Prop where
  path : ∃ inner, s.names = inner ++ f :: s₀.names
  looked : ∀ m ∈ s.visited, m ∉ s₀.visited → ∀ b ∈ f :: s₀.names, g.Calls m b →
    (∀ k ∈ s.path, k.name = m → b ∉ k.pending) → ∃ c ∈ s.found, f ∈ c

/-- A closed walk of `f` that keeps to functions not left in `s₀` has brought `f` into a cycle. -/
def Reports (g : CallGraph) (f : String) (s₀ s : CycleSearch) : Prop :=
  ∀ w, (f :: w ++ [f]).IsChain g.Calls → (∀ n ∈ w, ¬ s₀.Settled n) → ∃ c ∈ s.found, f ∈ c

section Moves

variable {g : CallGraph} {f : String} {s₀ s : CycleSearch}

theorem Below.mem_names (h : Below g f s₀ s) {b : String} (hb : b ∈ f :: s₀.names) :
    b ∈ s.names := by
  obtain ⟨inner, hn⟩ := h.path
  rw [hn]
  exact List.mem_append_right inner hb

theorem Below.enter (hg : g.Consistent) (h : Below g f s₀ s) (c : String) :
    Below g f s₀ (CycleSearch.enter g s c) where
  path := by
    obtain ⟨inner, hn⟩ := h.path
    exact ⟨c :: inner, by rw [names_enter, hn]; rfl⟩
  looked := by
    intro m hm hm₀ b hb hcall hlooked
    rcases (mem_visited_enter g s c m).1 hm with rfl | hm
    · -- nothing has been looked at yet
      exact absurd ((hg.mem_callees m b).2 hcall) (hlooked ⟨m, g.callees m⟩ List.mem_cons_self rfl)
    · exact h.looked m hm hm₀ b hb hcall fun k hk => hlooked k (List.mem_cons_of_mem _ hk)

/-- Looking at a callee keeps the path. -/
theorem Below.look (h : Below g f s₀ s) {n c : String} {pending : List String} {rest : List Frame}
    (hp : s.path = ⟨n, c :: pending⟩ :: rest) {found : List (List String)}
    (hfound : ∀ d ∈ s.found, d ∈ found) (hc : c ∈ f :: s₀.names → ∃ d ∈ found, f ∈ d) :
    Below g f s₀ { s with path := ⟨n, pending⟩ :: rest, found } where
  path := by
    obtain ⟨inner, hn⟩ := h.path
    exact ⟨inner, by rw [← hn]; simp [names, hp]⟩
  looked := by
    intro m hm hm₀ b hb hcall hlooked
    by_cases hbc : b = c
    · exact hc (hbc ▸ hb)
    · obtain ⟨d, hd, hf⟩ := h.looked m hm hm₀ b hb hcall fun k hk hkm => by
        rw [hp] at hk
        rcases List.mem_cons.1 hk with rfl | hk
        · have hb' : b ∉ pending := hlooked ⟨n, pending⟩ List.mem_cons_self hkm
          simp [hbc, hb']
        · exact hlooked k (List.mem_cons_of_mem _ hk) hkm
      exact ⟨d, hfound d hd, hf⟩

/-- What lies on the path not above `f` closes a cycle with `f`. -/
theorem mem_cycle_of_names {names : List String} {c : String} {inner outer above below : List String}
    (hnodup : names.Nodup) (hn : names = inner ++ c :: outer) (hf : names = above ++ f :: below)
    (hc : c ∈ f :: below) : f ∈ c :: inner.reverse := by
  rcases List.append_eq_append_iff.1 (hn.symm.trans hf) with ⟨l, rfl, hl⟩ | ⟨l, rfl, hl⟩
  · cases l with
    | nil =>
      obtain ⟨rfl, -⟩ := List.cons.inj hl
      exact List.mem_cons_self
    | cons d l =>
      -- otherwise `c` would stand on the path twice
      obtain ⟨rfl, -⟩ := List.cons.inj hl
      rw [hf, List.nodup_append] at hnodup
      exact absurd rfl (hnodup.2.2 c (by simp) c hc)
  · cases l with
    | nil =>
      obtain ⟨rfl, -⟩ := List.cons.inj hl
      exact List.mem_cons_self
    | cons d l =>
      obtain ⟨rfl, -⟩ := List.cons.inj hl
      simp

theorem below_of_enter (hg : g.Consistent) (hnames : s.names = s₀.names)
    (hvisited : s.visited = s₀.visited) : Below g f s₀ (CycleSearch.enter g s f) where
  path := ⟨[], by rw [names_enter, hnames]; rfl⟩
  looked := by
    intro m hm hm₀ b hb hcall hlooked
    rcases (mem_visited_enter g s f m).1 hm with rfl | hm
    · exact absurd ((hg.mem_callees m b).2 hcall) (hlooked ⟨m, g.callees m⟩ List.mem_cons_self rfl)
    · exact absurd (hvisited ▸ hm) hm₀

/-- The move that meets `f` puts it at the end of the path. -/
theorem below_of_meeting (hg : g.Consistent) {t : CycleSearch} (hm : Move g s t)
    (hs : f ∉ s.visited) (ht : f ∈ t.visited) : Below g f s t := by
  cases hm with
  | @root n hp hn hv =>
    obtain rfl : f = n := by simpa [hs] using ht
    exact below_of_enter hg rfl rfl
  | leave hp => exact absurd ht hs
  | @call n c pending rest hp hv =>
    obtain rfl : f = c := by simpa [hs] using ht
    exact below_of_enter hg (by simp [names, hp]) rfl
  | close hp hc hn => exact absurd ht hs
  | pass hp hv hc => exact absurd ht hs

/-- The part of the path before `f` is as it was when `f` was met. -/
theorem Below.rest_eq (ht : Tracked g s) (h : Below g f s₀ s) {pending : List String}
    {rest : List Frame} (hp : s.path = ⟨f, pending⟩ :: rest) : rest.map Frame.name = s₀.names := by
  obtain ⟨inner, hn⟩ := h.path
  rw [names_of_path hp] at hn
  cases inner with
  | nil => exact (List.cons.inj hn).2
  | cons k inner =>
    have hnodup := ht.nodup
    obtain ⟨rfl, hrest⟩ := List.cons.inj hn
    rw [names_of_path hp, hrest, List.nodup_cons] at hnodup
    simp at hnodup

/-- A walk to `f` ends in a call back to the path before `f`, or to `f`, if all calls of the functions
met since `s₀` have been followed. -/
theorem exists_cycle_of_walk (h₀ : Tracked g s₀) {t : CycleSearch} (hset : Settling g t)
    (hleft : ∀ m ∈ t.visited, m ∉ s₀.visited → t.Settled m)
    (hcalls : ∀ m ∈ t.visited, m ∉ s₀.visited → ∀ b ∈ f :: s₀.names, g.Calls m b →
      ∃ c ∈ t.found, f ∈ c)
    {a : String} (ha : a ∈ t.visited) (ha₀ : a ∉ s₀.visited) {w : List String}
    (hchain : (a :: w ++ [f]).IsChain g.Calls) (hw : ∀ n ∈ w, ¬ s₀.Settled n) :
    ∃ c ∈ t.found, f ∈ c := by
  induction w generalizing a with
  | nil => exact hcalls a ha ha₀ f List.mem_cons_self (by simpa using hchain)
  | cons n w ih =>
    obtain ⟨han, hchain⟩ := List.isChain_cons_cons.1 hchain
    by_cases hn : n ∈ s₀.names
    · exact hcalls a ha ha₀ n (List.mem_cons_of_mem f hn) han
    · have hn₀ : n ∉ s₀.visited := fun hv =>
        hw n List.mem_cons_self ⟨hv, fun ho => hn ((h₀.mem_onPath n).1 ho)⟩
      have hnt : n ∈ t.visited := hset.callee_visited (hleft a ha ha₀) han
      exact ih hnt hn₀ hchain fun m hm => hw m (List.mem_cons_of_mem n hm)

/-- When `f` is left, each of its closed walks has been followed as far as the path before `f`. -/
theorem Below.reports (h₀ : Tracked g s₀) (ht : Tracked g s) (hset : Settling g s)
    (h : Below g f s₀ s) (hf : f ∉ s₀.visited) {rest : List Frame}
    (hp : s.path = ⟨f, []⟩ :: rest) :
    Reports g f s₀ { s with onPath := s.onPath.erase f, path := rest } := by
  have hrest : rest.map Frame.name = s₀.names := h.rest_eq ht hp
  have hset' := hset.leave ht hp
  have ht' := ht.leave hp
  set t : CycleSearch := { s with onPath := s.onPath.erase f, path := rest }
  -- nothing met since `s₀` is on the path any more
  have hnew : ∀ m ∈ t.visited, m ∉ s₀.visited → m ∉ t.names := by
    intro m _ hm₀ hmem
    exact hm₀ (h₀.visited m (hrest ▸ hmem))
  have hleft : ∀ m ∈ t.visited, m ∉ s₀.visited → t.Settled m := by
    intro m hm hm₀
    exact ⟨hm, fun ho => hnew m hm hm₀ ((ht'.mem_onPath m).1 ho)⟩
  have hcalls : ∀ m ∈ t.visited, m ∉ s₀.visited → ∀ b ∈ f :: s₀.names, g.Calls m b →
      ∃ c ∈ t.found, f ∈ c := by
    intro m hm hm₀ b hb hcall
    refine h.looked m hm hm₀ b hb hcall fun k hk hkm => ?_
    rw [hp] at hk
    rcases List.mem_cons.1 hk with rfl | hk
    · exact List.not_mem_nil
    · exact absurd (List.mem_map.2 ⟨k, hk, hkm⟩) (hnew m hm hm₀)
  intro w hchain hw
  have hfv : f ∈ t.visited := ht.visited f (h.mem_names List.mem_cons_self)
  exact exists_cycle_of_walk h₀ hset' hleft hcalls hfv hf hchain hw

theorem Below.move (hg : g.Consistent) (h₀ : Tracked g s₀) (ht : Tracked g s) (hset : Settling g s)
    (h : Below g f s₀ s) (hf : f ∉ s₀.visited) {t : CycleSearch} (hm : Move g s t) :
    Below g f s₀ t ∨ Reports g f s₀ t := by
  have hne : s.names ≠ [] := by
    obtain ⟨inner, hn⟩ := h.path
    simp [hn]
  cases hm with
  | root hp => exact absurd (by simp [names, hp]) hne
  | @leave n rest hp =>
    obtain ⟨inner, hn⟩ := h.path
    have hnames := names_of_path hp
    cases inner with
    | nil =>
      obtain ⟨rfl, -⟩ := List.cons.inj (hnames.symm.trans hn)
      exact .inr (h.reports h₀ ht hset hf hp)
    | cons k inner =>
      obtain ⟨-, hrest⟩ := List.cons.inj (hnames.symm.trans hn)
      refine .inl ⟨⟨inner, hrest⟩, fun m hm hm₀ b hb hcall hlooked => ?_⟩
      refine h.looked m hm hm₀ b hb hcall fun k hk hkm => ?_
      rw [hp] at hk
      rcases List.mem_cons.1 hk with rfl | hk
      · exact List.not_mem_nil
      · exact hlooked k hk hkm
  | @call n c pending rest hp hv =>
    have hc : c ∉ f :: s₀.names := fun hc => hv (ht.visited c (h.mem_names hc))
    exact .inl ((h.look hp (fun d hd => hd) fun hc' => absurd hc' hc).enter hg c)
  | @close n c pending inner outer rest hp hc hn =>
    obtain ⟨above, hpath⟩ := h.path
    refine .inl (h.look hp (fun d hd => List.mem_cons_of_mem _ hd) fun hc' => ?_)
    exact ⟨_, List.mem_cons_self, mem_cycle_of_names ht.nodup hn hpath hc'⟩
  | @pass n c pending rest hp hv hc =>
    have hc' : c ∉ f :: s₀.names := fun hc' => hc ((ht.mem_onPath c).2 (h.mem_names hc'))
    exact .inl (h.look hp (fun d hd => hd) fun h' => absurd h' hc')

/-- From the moment in which `f` is met on, `f` is on the path or its closed walks have been
followed. -/
theorem below_or_reports (hg : g.Consistent) (h₀ : Tracked g s₀) (hf : f ∉ s₀.visited)
    (h : Invariant g s) (hb : Below g f s₀ s) {t : CycleSearch} (hm : Moves g s t) :
    Below g f s₀ t ∨ Reports g f s₀ t := by
  induction hm with
  | refl => exact .inl hb
  | @tail u t hsu hm ih =>
    rcases ih with hb | hr
    · have hu := h.moves hg hsu
      exact hb.move hg h₀ hu.tracked hu.settling hf hm
    · right
      intro w hchain hw
      obtain ⟨c, hc, hfc⟩ := hr w hchain hw
      exact ⟨c, found_move hm hc, hfc⟩

end Moves

end CycleSearch

/-! ## Members of a cycle -/

namespace IsCycle

variable {g : CallGraph} {c : List String}

/-- A cycle can be walked from each of its functions. -/
theorem exists_walk (h : IsCycle g c) {f : String} (hf : f ∈ c) :
    ∃ w, (∀ n, n ∈ f :: w ↔ n ∈ c) ∧ (f :: w ++ [f]).IsChain g.Calls := by
  obtain ⟨before, after, rfl⟩ := List.append_of_mem hf
  obtain ⟨⟨a, b⟩, hab, hlast, hhead⟩ := h.closed
  refine ⟨after ++ before, fun n => ?_, ?_⟩
  · simp only [List.mem_cons, List.mem_append]
    tauto
  · have hafter : (f :: after).IsChain g.Calls := h.chain.suffix (List.suffix_append _ _)
    have hbefore : (before ++ [f]).IsChain g.Calls := h.chain.prefix ⟨after, by simp⟩
    have hsplit : f :: (after ++ before) ++ [f] = (f :: after) ++ (before ++ [f]) := by simp
    rw [hsplit, List.isChain_append]
    refine ⟨hafter, hbefore, fun x hx y hy => ?_⟩
    -- the walk goes on from the last function of the cycle to the first one
    have hx' : x = a := by
      rw [List.getLast?_append_of_ne_nil _ (by simp)] at hlast
      exact Option.some.inj (hx.symm.trans hlast)
    have hy' : y = b := by
      have hheads : (before ++ [f]).head? = (before ++ f :: after).head? := by
        cases before <;> rfl
      exact Option.some.inj (hy.symm.trans (hheads.trans hhead))
    rw [hx', hy']
    exact hab

/-- Any two functions of a cycle reach each other. -/
theorem reaches (h : IsCycle g c) {m n : String} (hm : m ∈ c) (hn : n ∈ c) :
    TransGen g.Calls m n := by
  obtain ⟨w, hmem, hw⟩ := h.exists_walk hm
  rcases List.mem_cons.1 ((hmem n).2 hn) with rfl | hn
  · exact transGen_of_isChain hw
  · obtain ⟨before, after, rfl⟩ := List.append_of_mem hn
    have hprefix : m :: before ++ [n] <+: m :: (before ++ n :: after) ++ [m] := ⟨after ++ [m], by simp⟩
    exact transGen_of_isChain <| hw.prefix hprefix

end IsCycle

namespace CallGraph

/-- A chain of calls either takes a closing call or remains without the closing calls. -/
theorem exists_closing_or_remains {g : CallGraph} {a b : String} (h : TransGen g.Calls a b) :
    TransGen g.Remains a b ∨ ∃ c ∈ g.cycles, ∃ x y, Closes c ⟨x, y⟩ ∧
      ReflTransGen g.Calls a x ∧ ReflTransGen g.Calls y b := by
  have hcall : ∀ {x y}, g.Calls x y → g.Remains x y ∨ ∃ c ∈ g.cycles, Closes c ⟨x, y⟩ := by
    intro x y hxy
    by_cases hclose : ∃ c ∈ g.cycles, Closes c ⟨x, y⟩
    · exact .inr hclose
    · exact .inl ⟨hxy, fun c hc h => hclose ⟨c, hc, h⟩⟩
  induction h with
  | @single b hab =>
    rcases hcall hab with hr | ⟨c, hc, hclose⟩
    · exact .inl (.single hr)
    · exact .inr ⟨c, hc, a, b, hclose, .refl, .refl⟩
  | @tail b d hab hbd ih =>
    rcases ih with hr | ⟨c, hc, x, y, hclose, hax, hyb⟩
    · rcases hcall hbd with hr' | ⟨c, hc, hclose⟩
      · exact .inl (hr.tail hr')
      · exact .inr ⟨c, hc, b, d, hclose, hab.to_reflTransGen, .refl⟩
    · exact .inr ⟨c, hc, x, y, hclose, hax, hyb.tail hbd⟩

section Consistent

variable {g : CallGraph} (hg : g.Consistent)

include hg

/-- A function that calls itself by way of others shares its group with a cycle reported. -/
theorem exists_cycle_of_group {f : String} (hf : TransGen g.Calls f f) :
    ∃ c ∈ g.cycles, ∀ m ∈ c, TransGen g.Calls f m ∧ TransGen g.Calls m f := by
  rcases exists_closing_or_remains hf with hr | ⟨c, hc, x, y, hclose, hfx, hyf⟩
  · exact absurd hr (remains_acyclic hg f)
  · have hcycle := isCycle_of_mem hg hc
    have hx : x ∈ c := CycleSearch.mem_of_closes hclose
    have hy : y ∈ c := List.mem_of_mem_head? hclose.2
    refine ⟨c, hc, fun m hm => ⟨?_, ?_⟩⟩
    · exact .trans_right hfx (hcycle.reaches hx hm)
    · exact (hcycle.reaches hm hy).trans_left hyf

/-- The walks that the search does not leave out show which functions it reports. -/
theorem exists_mem_cycles_iff (f : String) :
    (∃ c ∈ g.cycles, f ∈ c) ↔
      ∃ w, (f :: w ++ [f]).IsChain g.Calls ∧ ∀ n ∈ w, ¬ CycleSearch.LeftBefore g n f := by
  obtain ⟨last, hlast⟩ := CycleSearch.moment_eq_whole hg
  have hrun : ∀ k, CycleSearch.Moves g (CycleSearch.moment g k) (CycleSearch.whole g) := by
    intro k
    rw [← hlast (max k last) (le_max_right k last)]
    exact CycleSearch.moves_moment hg (le_max_left k last)
  constructor
  · rintro ⟨c, hc, hf⟩
    obtain ⟨w, hmem, hw⟩ := (isCycle_of_mem hg hc).exists_walk hf
    refine ⟨w, hw, fun n hn => ?_⟩
    rintro ⟨k, hsettled, hfk⟩
    have hinv := CycleSearch.invariant_moment hg k
    rcases CycleSearch.not_settled_of_found hg hinv (hrun k) ((mem_cycles_iff g c).1 hc) with
      hfound | hnone
    · exact hfk (hinv.visited_of_found hfound hf)
    · exact hnone n ((hmem n).1 (List.mem_cons_of_mem f hn)) hsettled
  · rintro ⟨w, hw, hleft⟩
    have hf : f ∈ g.nodes := by
      cases w with
      | nil => exact (hg.ends (by simpa using hw)).1
      | cons n w => exact (hg.ends (List.isChain_cons_cons.1 hw).1).1
    obtain ⟨k, hfk, hfk'⟩ := CycleSearch.exists_meeting hg hf
    have hinv := CycleSearch.invariant_moment hg k
    have hmove := CycleSearch.move_turn hg (P := (f ∈ ·.visited)) hfk hfk'
    have hbelow := CycleSearch.below_of_meeting hg hmove hfk hfk'
    rcases CycleSearch.below_or_reports hg hinv.tracked hfk
      (CycleSearch.invariant_moment hg (k + 1)) hbelow (hrun (k + 1)) with hb | hr
    · obtain ⟨inner, hn⟩ := hb.path
      rw [CycleSearch.names, (CycleSearch.whole_spec hg).1] at hn
      simp at hn
    · obtain ⟨c, hc, hfc⟩ := hr w hw fun n hn hs => hleft n hn ⟨k, hs, hfk⟩
      exact ⟨c, (mem_cycles_iff g c).2 hc, hfc⟩

end Consistent

/-- A function is in one of the cycles reported for a graph under construction exactly if one of its
closed walks goes through no function that the search has left before it meets this one. Every
function that calls itself by way of others has some function of its group in a cycle reported. The
moments spoken of are those of the search that gives the cycles, and the statistics show these. -/
theorem cycles_report (steps : List Insertion) :
    let g := build steps
    (∀ f, (∃ c ∈ g.cycles, f ∈ c) ↔
      ∃ w, (f :: w ++ [f]).IsChain g.Calls ∧ ∀ n ∈ w, ¬ CycleSearch.LeftBefore g n f) ∧
    (∀ f, TransGen g.Calls f f →
      ∃ c ∈ g.cycles, ∀ m ∈ c, TransGen g.Calls f m ∧ TransGen g.Calls m f) ∧
    (∃ last, ∀ k, last ≤ k → (CycleSearch.moment g k).path = [] ∧
      (CycleSearch.moment g k).found.reverse = g.cycles) ∧
    (∀ format, format = .text ∨ format = .dot → ∃ overview, Listing.statistics format g =
      Text.trimEnd (overview ++
        if g.cycles.isEmpty then "cycles:         " ++ Listing.nothing ++ "\n"
        else String.join (g.cycles.map Listing.cycleLine))) ∧
    (∃ members, Listing.statistics .json g = (Json.object members).pretty ∧
      ("cycles", .array (g.cycles.map .strings)) ∈ members) := by
  intro g
  have hg : g.Consistent := build_consistent steps
  refine ⟨exists_mem_cycles_iff hg, fun f => exists_cycle_of_group hg, ?_, ?_, ?_⟩
  · obtain ⟨last, hlast⟩ := CycleSearch.moment_eq_whole hg
    refine ⟨last, fun k hk => ?_⟩
    rw [hlast k hk]
    exact ⟨(CycleSearch.whole_spec hg).1, rfl⟩
  · rintro format (rfl | rfl) <;> exact ⟨_, rfl⟩
  · exact ⟨_, rfl, by simp⟩

/-- Two calls to `b`, of which the search takes the first one: `b` has been left when it comes to
`c`. -/
def detour : List Insertion :=
  [.node "a", .node "b", .node "c",
    .edge "a" "b", .edge "a" "c", .edge "b" "a", .edge "c" "b"]

/-- `c` calls itself by way of `b` and `a`, and yet it is in no cycle reported. -/
theorem detour_not_reported :
    TransGen (build detour).Calls "c" "c" ∧ (build detour).cycles = [["a", "b"]] ∧
      ∀ c ∈ (build detour).cycles, "c" ∉ c := by
  have hcycles : (build detour).cycles = [["a", "b"]] := by decide +kernel
  refine ⟨?_, hcycles, by simp [hcycles]⟩
  have hcb : (build detour).Calls "c" "b" := by unfold Calls; decide +kernel
  have hba : (build detour).Calls "b" "a" := by unfold Calls; decide +kernel
  have hac : (build detour).Calls "a" "c" := by unfold Calls; decide +kernel
  exact .head hcb (.head hba (.single hac))

end CallGraph

end CallAtlas.Graph
