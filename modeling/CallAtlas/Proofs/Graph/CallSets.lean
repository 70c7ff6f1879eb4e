import CallAtlas.Graph.CallSet

/-!
# The calls of each function

What the operations on the calls of a program do to the functions in them and to the callees of each
function.
-/

namespace CallAtlas.Graph

namespace NameSet

theorem mem_filter (s : NameSet) (f : String → Bool) (n : String) :
    n ∈ s.filter f ↔ n ∈ s ∧ f n = true := by
  rw [Std.ExtTreeSet.mem_filter]
  constructor
  · rintro ⟨h, hf⟩
    rw [Std.ExtTreeSet.get_eq] at hf
    exact ⟨h, hf⟩
  · rintro ⟨h, hf⟩
    refine ⟨h, ?_⟩
    rwa [Std.ExtTreeSet.get_eq]

end NameSet

namespace CallSet

theorem mem_names (c : CallSet) (n : String) : n ∈ c.names ↔ c.contains n = true := by
  rw [names, Std.ExtTreeMap.mem_keys, contains, Std.ExtTreeMap.contains_iff_mem]

theorem callees?_eq_none_iff (c : CallSet) (n : String) :
    c.callees? n = none ↔ ¬ c.contains n = true := by
  rw [callees?, contains, Std.ExtTreeMap.contains_eq_isSome_getElem?, Option.not_isSome_iff_eq_none]

theorem contains_insertFunction (c : CallSet) (name n : String) :
    (c.insertFunction name).contains n = true ↔ name = n ∨ c.contains n = true := by
  simp [insertFunction, contains, Std.ExtTreeMap.contains_insertIfNew]

theorem contains_setCallees (c : CallSet) (name : String) (callees : NameSet) :
    (c.setCallees name callees).contains = c.contains := by
  funext n
  rw [setCallees]
  split
  · rename_i hname
    by_cases hn : name = n
    · subst hn
      simpa [contains] using hname
    · simp [contains, Std.ExtTreeMap.contains_insert, hn]
  · rfl

theorem callees?_setCallees_self {c : CallSet} {name : String} (h : c.contains name = true)
    (callees : NameSet) :
    (c.setCallees name callees).callees? name = some (callees.filter c.contains) := by
  simp [setCallees, h, callees?]

theorem callees?_setCallees_ne (c : CallSet) {name n : String} (h : name ≠ n) (callees : NameSet) :
    (c.setCallees name callees).callees? n = c.callees? n := by
  rw [setCallees]
  split
  · simp [callees?, Std.ExtTreeMap.getElem?_insert, h]
  · rfl

end CallSet

end CallAtlas.Graph
