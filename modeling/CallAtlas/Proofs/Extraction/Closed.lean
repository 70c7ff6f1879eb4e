import CallAtlas.Proofs.Extraction.Calls
import CallAtlas.Proofs.Graph.Changes

/-!
# The calls of a program are closed

Extraction adds the functions of a program to no functions at all and then sets calls. So each name of its
call set, be it that of a function or that of a callee, is the name of a record.
-/

namespace CallAtlas.Extraction

open CallAtlas.Graph Syntax

theorem known_eq_changes (t : Tree) :
    known t = CallSet.empty.changes ((definitions t).map fun d => .function d.record.name) := by
  rw [known, CallSet.changes, List.foldl_map]
  rfl

/-- Giving calls to names only sets calls, whatever the policy. -/
theorem exists_changes_of_assignCalls {policy : DuplicatePolicy}
    {entries : List (FunctionRecord × NameSet)} {seen : Std.ExtTreeMap String Nat}
    {calls result : CallSet} (h : assignCalls policy seen entries calls = .ok result) :
    ∃ steps, result = calls.changes steps ∧ ∀ n, .function n ∉ steps := by
  induction entries generalizing seen calls with
  | nil =>
    cases h
    exact ⟨[], rfl, fun _ => List.not_mem_nil⟩
  | cons entry entries ih =>
    obtain ⟨record, callees⟩ := entry
    have hset {seen' : Std.ExtTreeMap String Nat}
        (h : assignCalls policy seen' entries (calls.setCallees record.name callees) = .ok result) :
        ∃ steps, result = calls.changes steps ∧ ∀ n, .function n ∉ steps := by
      obtain ⟨steps, rfl, hsteps⟩ := ih h
      refine ⟨.callees record.name callees :: steps, rfl, fun n hn => ?_⟩
      exact (List.mem_cons.1 hn).elim nofun (hsteps n)
    rw [assignCalls] at h
    split at h
    · exact hset h
    · cases policy with
      | lastWins => exact hset h
      | firstWins => exact ih h
      | reject => cases h

/-- The names with calls are those of the records, and they call no others. -/
theorem calls_of_ofTree {policy : DuplicatePolicy} {t : Tree} {e : Extraction}
    (h : ofTree policy t = .ok e) :
    e.calls.Closed ∧ ∀ n, n ∈ e.calls.names ↔ ∃ r ∈ e.functions, r.name = n := by
  rw [ofTree_eq] at h
  cases hcalls : assignCalls policy ∅ (resolved t) (known t) with
  | error failure =>
    rw [hcalls] at h
    cases h
  | ok calls =>
    rw [hcalls] at h
    cases h
    obtain ⟨steps, rfl, hsteps⟩ := exists_changes_of_assignCalls hcalls
    constructor
    · refine CallSet.closed_of_not_dangling fun a b hdangling => ?_
      have hknown := CallSet.dangling_changes hdangling
      rw [known_eq_changes] at hknown
      exact CallSet.not_dangling_empty a b (CallSet.dangling_changes hknown)
    · intro n
      rw [CallSet.mem_names, CallSet.contains_changes, or_iff_left (hsteps n), contains_known]
      simp

end CallAtlas.Extraction
