import CallAtlas.Proofs.Graph.CallSets
import CallAtlas.Proofs.Graph.Mentions

/-!
# The order of additions

Functions may be added to a call set in any order, and the calls of different functions may be set in
any order. What is mentioned to a dependency graph may come in any order, too, as long as no name is
defined in two ways: a definition takes the place of the references before it and outlives those after
it.
-/

namespace CallAtlas.Graph

namespace CallSet

theorem ext_callees? {c c' : CallSet} (h : ∀ n, c.callees? n = c'.callees? n) : c = c' :=
  congrArg mk (Std.ExtTreeMap.ext_getElem? fun {n} => h n)

theorem callees?_insertFunction (c : CallSet) (name n : String) :
    (c.insertFunction name).callees? n =
      if name = n ∧ c.callees? n = none then some ∅ else c.callees? n := by
  simp only [insertFunction, callees?, Std.ExtTreeMap.getElem?_insertIfNew, Std.compare_eq_iff_eq]
  refine if_congr (and_congr_right fun hn => ?_) rfl rfl
  rw [← hn, Std.ExtTreeMap.mem_iff_isSome_getElem?, Option.not_isSome_iff_eq_none]

theorem insertFunction_comm (c : CallSet) (a b : String) :
    (c.insertFunction a).insertFunction b = (c.insertFunction b).insertFunction a := by
  refine ext_callees? fun n => ?_
  simp only [callees?_insertFunction]
  by_cases ha : a = n <;> by_cases hb : b = n <;> simp [ha, hb]

theorem setCallees_of_not_contains {c : CallSet} {name : String} (h : ¬ c.contains name = true)
    (callees : NameSet) : c.setCallees name callees = c := by
  rw [setCallees, if_neg h]

/-- The calls of two functions may be set in either order. -/
theorem setCallees_comm (c : CallSet) {a b : String} (h : a ≠ b) (s t : NameSet) :
    (c.setCallees a s).setCallees b t = (c.setCallees b t).setCallees a s := by
  by_cases ha : c.contains a = true
  · by_cases hb : c.contains b = true
    · have hab : (c.setCallees a s).contains b = true := by rwa [contains_setCallees]
      have hba : (c.setCallees b t).contains a = true := by rwa [contains_setCallees]
      refine ext_callees? fun n => ?_
      by_cases hna : a = n
      · subst hna
        rw [callees?_setCallees_ne _ h.symm, callees?_setCallees_self ha,
          callees?_setCallees_self hba, contains_setCallees]
      · by_cases hnb : b = n
        · subst hnb
          rw [callees?_setCallees_self hab, callees?_setCallees_ne _ hna,
            callees?_setCallees_self hb, contains_setCallees]
        · simp only [callees?_setCallees_ne _ hna, callees?_setCallees_ne _ hnb]
    · have hab : ¬ (c.setCallees a s).contains b = true := by rwa [contains_setCallees]
      rw [setCallees_of_not_contains hb, setCallees_of_not_contains hab]
  · have hba : ¬ (c.setCallees b t).contains a = true := by rwa [contains_setCallees]
    rw [setCallees_of_not_contains ha, setCallees_of_not_contains hba]

end CallSet

namespace DependencyGraph

variable {steps steps' : List Mention}

theorem ext_kinds_edges {g g' : DependencyGraph} (hkinds : ∀ n, g.kindOf? n = g'.kindOf? n)
    (hedges : ∀ e, e ∈ g.edges ↔ e ∈ g'.edges) : g = g' := by
  obtain ⟨nodes, edges⟩ := g
  obtain ⟨nodes', edges'⟩ := g'
  exact congrArg₂ mk (Std.ExtTreeMap.ext_getElem? fun {n} => hkinds n) (Std.ExtTreeSet.ext_mem hedges)

/-- No name is defined in two ways. -/
def Unambiguous (steps : List Mention) : Prop :=
  ∀ m ∈ steps, ∀ m' ∈ steps, ∀ n kind kind',
    m.definition? n = some kind → m'.definition? n = some kind' → kind = kind'

theorem definedKind_eq_some_iff (h : Unambiguous steps) {n : String} {kind : NameKind} :
    definedKind steps n = some kind ↔ ∃ m ∈ steps, m.definition? n = some kind := by
  constructor
  · exact List.exists_of_findSome?_eq_some
  · rintro ⟨m, hm, hkind⟩
    have hsome : (definedKind steps n).isSome = true :=
      List.findSome?_isSome_iff.2 ⟨m, hm, by rw [hkind]; rfl⟩
    obtain ⟨kind', hkind'⟩ := Option.isSome_iff_exists.1 hsome
    obtain ⟨m', hm', hdefined⟩ := List.exists_of_findSome?_eq_some hkind'
    rw [hkind', h m hm m' hm' n kind kind' hkind hdefined]

/-- The graph does not depend on the order in which things are mentioned. -/
theorem build_perm (hperm : steps.Perm steps') (h : Unambiguous steps) :
    build steps = build steps' := by
  have h' : Unambiguous steps' := fun m hm m' hm' =>
    h m (hperm.mem_iff.2 hm) m' (hperm.mem_iff.2 hm')
  refine ext_kinds_edges (fun n => ?_) fun e => ?_
  · have hdefined : definedKind steps n = definedKind steps' n := by
      refine Option.ext fun kind => ?_
      rw [definedKind_eq_some_iff h, definedKind_eq_some_iff h']
      simp only [hperm.mem_iff]
    rw [kindOf?_build, kindOf?_build, hdefined, hperm.any_eq]
  · rw [mem_edges_build, mem_edges_build, hperm.mem_iff]

end DependencyGraph

end CallAtlas.Graph
