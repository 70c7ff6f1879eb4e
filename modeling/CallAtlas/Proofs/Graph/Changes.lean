import CallAtlas.Proofs.Graph.ClosedPart
import CallAtlas.Proofs.Graph.Order

/-!
# Call sets under change

A call set may come from outside with callees that are no functions of it. Adding functions and setting
calls brings in no other such callee: whatever the order of the changes, a callee that is set is a
function of the set at that moment, and functions are never taken away again.
-/

namespace CallAtlas.Graph

/-- A change of a call set. -/
inductive Change where
  | function (name : String)
  | callees (name : String) (callees : NameSet)

namespace CallSet

/-- The call set after a change. -/
def change (c : CallSet) : Change → CallSet
  | .function name => c.insertFunction name
  | .callees name callees => c.setCallees name callees

/-- The call set after some changes, the first one first. -/
def changes (c : CallSet) (steps : List Change) : CallSet := steps.foldl change c

/-- A function of the set calls what is no function of it. -/
def Dangling (c : CallSet) (caller callee : String) : Prop :=
  (∃ callees, c.callees? caller = some callees ∧ callee ∈ callees) ∧ c.contains callee = false

theorem closed_of_not_dangling {c : CallSet} (h : ∀ a b, ¬ c.Dangling a b) : c.Closed := by
  intro caller callees hcallees callee hcallee
  rw [mem_names]
  by_contra hmissing
  exact h caller callee ⟨⟨callees, hcallees, hcallee⟩, by simpa using hmissing⟩

theorem not_dangling_empty (a b : String) : ¬ empty.Dangling a b := by
  rintro ⟨⟨callees, hcallees, -⟩, -⟩
  simp [empty, callees?] at hcallees

/-! ## One change -/

theorem contains_change (c : CallSet) (s : Change) (n : String) :
    (c.change s).contains n = true ↔ c.contains n = true ∨ s = .function n := by
  cases s with
  | function name =>
    rw [change, contains_insertFunction, or_comm, Change.function.injEq]
  | callees name callees =>
    rw [change, contains_setCallees, or_iff_left nofun]

/-- A function of the set keeps its callees unless they are set anew. -/
theorem callees?_insertFunction_of_contains {c : CallSet} {n : String} (h : c.contains n = true)
    (name : String) : (c.insertFunction name).callees? n = c.callees? n := by
  rw [callees?_insertFunction, if_neg]
  rintro ⟨-, hnone⟩
  exact (c.callees?_eq_none_iff n).1 hnone h

theorem callees?_insertFunction_self {c : CallSet} {name : String} (h : c.contains name = false) :
    (c.insertFunction name).callees? name = some ∅ := by
  rw [callees?_insertFunction, if_pos ⟨rfl, (c.callees?_eq_none_iff name).2 (by simp [h])⟩]

/-- The callees of a function after a change are those from before or functions of the set. -/
theorem callee_change {c : CallSet} {s : Change} {a b : String} {callees : NameSet}
    (h : (c.change s).callees? a = some callees) (hb : b ∈ callees) :
    (∃ before, c.callees? a = some before ∧ b ∈ before) ∨ c.contains b = true := by
  cases s with
  | function name =>
    rw [change, callees?_insertFunction] at h
    split at h
    · cases h
      exact absurd hb Std.ExtTreeSet.not_mem_empty
    · exact .inl ⟨callees, h, hb⟩
  | callees name set =>
    by_cases hname : c.contains name = true
    · by_cases ha : name = a
      · subst ha
        rw [change, callees?_setCallees_self hname] at h
        cases h
        exact .inr ((NameSet.mem_filter _ _ _).1 hb).2
      · rw [change, callees?_setCallees_ne c ha] at h
        exact .inl ⟨callees, h, hb⟩
    · rw [change, setCallees_of_not_contains hname] at h
      exact .inl ⟨callees, h, hb⟩

theorem dangling_change {c : CallSet} {s : Change} {a b : String} (h : (c.change s).Dangling a b) :
    c.Dangling a b := by
  obtain ⟨⟨callees, hcallees, hb⟩, hmissing⟩ := h
  have hbefore : ¬ c.contains b = true := by
    intro hpresent
    rw [(c.contains_change s b).2 (.inl hpresent)] at hmissing
    cases hmissing
  rcases callee_change hcallees hb with hold | hpresent
  · exact ⟨hold, by simpa using hbefore⟩
  · exact absurd hpresent hbefore

/-! ## Sequences of changes -/

theorem contains_changes (c : CallSet) (steps : List Change) (n : String) :
    (c.changes steps).contains n = true ↔ c.contains n = true ∨ .function n ∈ steps := by
  induction steps generalizing c with
  | nil => simp [changes]
  | cons s steps ih =>
    rw [changes, List.foldl_cons, ← changes, ih, contains_change, List.mem_cons, or_assoc,
      eq_comm (a := s)]

theorem dangling_changes {c : CallSet} {steps : List Change} {a b : String}
    (h : (c.changes steps).Dangling a b) : c.Dangling a b := by
  induction steps generalizing c with
  | nil => exact h
  | cons s steps ih =>
    rw [changes, List.foldl_cons, ← changes] at h
    exact dangling_change (ih h)

/-- No change of a call set brings in a callee that is no function of the set, so that a set made from
nothing has none. Functions stay and keep their callees when functions are added; the callees of a
function are set to those that are functions of the set at that moment, and those of what is no
function are not set at all; and the callees of different functions may be set in either order. -/
theorem changes_bring_no_dangling (c : CallSet) (steps : List Change) :
    let d := c.changes steps
    (∀ a b, d.Dangling a b → c.Dangling a b) ∧
    (empty.changes steps).Closed ∧
    (∀ n, d.contains n = true ↔ c.contains n = true ∨ .function n ∈ steps) ∧
    (∀ name, (∀ n, d.contains n = true → (d.insertFunction name).callees? n = d.callees? n) ∧
      (d.contains name = false → (d.insertFunction name).callees? name = some ∅)) ∧
    (∀ name callees, d.contains name = false → d.setCallees name callees = d) ∧
    (∀ name callees, d.contains name = true →
      (∃ known, (d.setCallees name callees).callees? name = some known ∧
        ∀ n, n ∈ known ↔ n ∈ callees ∧ d.contains n = true) ∧
      (∀ n, n ≠ name → (d.setCallees name callees).callees? n = d.callees? n)) ∧
    (∀ a b, a ≠ b → ∀ s t,
      (d.setCallees a s).setCallees b t = (d.setCallees b t).setCallees a s) := by
  intro d
  refine ⟨fun a b => dangling_changes, ?_, c.contains_changes steps, fun name => ⟨?_, ?_⟩, ?_,
    fun name callees hname => ⟨?_, ?_⟩, fun a b hab => d.setCallees_comm hab⟩
  · exact closed_of_not_dangling fun a b h => not_dangling_empty a b (dangling_changes h)
  · intro n hn
    exact callees?_insertFunction_of_contains hn name
  · exact callees?_insertFunction_self
  · intro name callees hname
    exact setCallees_of_not_contains (by simp [hname]) callees
  · exact ⟨_, callees?_setCallees_self hname callees, NameSet.mem_filter callees d.contains⟩
  · intro n hn
    exact callees?_setCallees_ne d hn.symm callees

end CallSet

end CallAtlas.Graph
