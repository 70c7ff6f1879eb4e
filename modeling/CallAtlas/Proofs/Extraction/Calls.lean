import CallAtlas.Proofs.Extraction.Definitions
import CallAtlas.Proofs.Graph.CallSets

/-!
# The calls that are found

The second walk finds the functions of the program that a tree calls by a bare name, anywhere in it.
Of the calls found in the definitions of one name, those of the last or of the first one count.
-/

namespace CallAtlas.Syntax.Node

/-- A node calls a function by its bare name. -/
def CallsName (source : Text.Source) (n : Node) (name : String) : Prop :=
  ∃ function, n.construct = .call function ∧ function.kind = .identifier ∧
    function.text source = name

end CallAtlas.Syntax.Node

namespace CallAtlas.Extraction

open CallAtlas.Graph Syntax Text

/-! ## The second walk -/

section Walk

variable (source : Source) (known : CallSet)

theorem directName_callee_eq_some_iff (function : Node) (name : String) :
    (function.callee source).directName = some name ↔
      function.kind = .identifier ∧ function.text source = name := by
  rw [Node.callee]
  split
  · rename_i hkind
    simp [hkind, Callee.directName]
  · rename_i hkind
    split <;> simp [hkind, Callee.directName]
  · rename_i hkind _
    constructor
    · intro h
      simp [Callee.directName] at h
    · rintro ⟨h, -⟩
      exact absurd h hkind

theorem calledBy_eq_some_iff (n : Node) (name : String) :
    calledBy source known n = some name ↔
      n.CallsName source name ∧ known.contains name = true := by
  rw [calledBy, Node.CallsName]
  cases hc : n.construct with
  | call function =>
    simp only [Option.filter_eq_some_iff, directName_callee_eq_some_iff, Construct.call.injEq,
      exists_eq_left']
  | function _ _ | classDefinition _ _ | other => simp

variable {source known}

theorem mem_addCallsOfAll {cs : List Node}
    (h : ∀ c ∈ cs, ∀ found name, name ∈ addCalls source known c found ↔
      name ∈ found ∨ ∃ m, Node.Within m c ∧ calledBy source known m = some name)
    (found : NameSet) (name : String) :
    name ∈ addCallsOfAll source known cs found ↔
      name ∈ found ∨ ∃ c ∈ cs, ∃ m, Node.Within m c ∧ calledBy source known m = some name := by
  induction cs generalizing found with
  | nil => simp [addCallsOfAll]
  | cons c cs ih =>
    rw [addCallsOfAll, ih (fun d hd => h d (by simp [hd])), h c (by simp), or_assoc,
      List.exists_mem_cons_iff]

theorem mem_addCalls (n : Node) : ∀ found name, name ∈ addCalls source known n found ↔
    name ∈ found ∨ ∃ m, Node.Within m n ∧ calledBy source known m = some name := by
  induction n using Node.induct with
  | h shape children ih =>
    intro found name
    have hwithin : (∃ m, Node.Within m (.node shape children) ∧
        calledBy source known m = some name) ↔
        calledBy source known (.node shape children) = some name ∨
          ∃ c ∈ children, ∃ m, Node.Within m c ∧ calledBy source known m = some name := by
      constructor
      · rintro ⟨m, hm, hcall⟩
        rcases Node.within_iff.1 hm with rfl | ⟨c, hc, hm⟩
        · exact .inl hcall
        · exact .inr ⟨c, hc, m, hm, hcall⟩
      · rintro (hcall | ⟨c, hc, m, hm, hcall⟩)
        · exact ⟨_, Node.within_iff.2 (.inl rfl), hcall⟩
        · exact ⟨m, Node.within_iff.2 (.inr ⟨c, hc, hm⟩), hcall⟩
    rw [addCalls, mem_addCallsOfAll ih, hwithin, ← or_assoc]
    refine or_congr_left ?_
    cases calledBy source known (.node shape children) with
    | none => simp
    | some called => simp [Std.ExtTreeSet.mem_insert, or_comm]

theorem mem_calleesOf (d : Definition) (name : String) :
    name ∈ calleesOf source known d ↔
      known.contains name = true ∧ ∃ m, m.CallsName source name ∧
        (Node.Within m d.node ∨ ∃ c ∈ d.decorators, Node.Within m c) := by
  rw [calleesOf, mem_addCalls, mem_addCallsOfAll fun c _ => mem_addCalls c]
  simp only [calledBy_eq_some_iff, Std.ExtTreeSet.not_mem_empty, false_or]
  constructor
  · rintro (⟨c, hc, m, hm, hcall, hknown⟩ | ⟨m, hm, hcall, hknown⟩)
    · exact ⟨hknown, m, hcall, .inr ⟨c, hc, hm⟩⟩
    · exact ⟨hknown, m, hcall, .inl hm⟩
  · rintro ⟨hknown, m, hcall, hm | ⟨c, hc, hm⟩⟩
    · exact .inr ⟨m, hm, hcall, hknown⟩
    · exact .inl ⟨c, hc, m, hm, hcall, hknown⟩

end Walk

/-! ## The functions of a program -/

/-- The functions of a program, without their calls. -/
def known (t : Tree) : CallSet :=
  (definitions t).foldl (fun c d => c.insertFunction d.record.name) .empty

/-- The records of a program with what their definitions call. -/
def resolved (t : Tree) : List (FunctionRecord × NameSet) :=
  (definitions t).map fun d => (d.record, calleesOf t.source (known t) d)

theorem ofTree_eq (policy : DuplicatePolicy) (t : Tree) :
    ofTree policy t = (assignCalls policy ∅ (resolved t) (known t)).map fun calls =>
      { functions := (definitions t).map (·.record), calls,
        contentHash := Digest.hex t.source.bytes } := by
  rw [ofTree, resolved, known]
  split
  · rename_i hcalls
    rw [hcalls]
    rfl
  · rename_i hcalls
    rw [hcalls]
    rfl

theorem functions_of_ofTree {policy : DuplicatePolicy} {t : Tree} {e : Extraction}
    (h : ofTree policy t = .ok e) : e.functions = (definitions t).map (·.record) := by
  rw [ofTree_eq] at h
  cases hcalls : assignCalls policy ∅ (resolved t) (known t) with
  | error failure =>
    rw [hcalls] at h
    cases h
  | ok calls =>
    rw [hcalls] at h
    cases h
    rfl

theorem contains_foldl_insertFunction (ds : List Definition) (c : CallSet) (name : String) :
    (ds.foldl (fun c d => c.insertFunction d.record.name) c).contains name = true ↔
      (∃ d ∈ ds, d.record.name = name) ∨ c.contains name = true := by
  induction ds generalizing c with
  | nil => simp
  | cons d ds ih =>
    rw [List.foldl_cons, ih, CallSet.contains_insertFunction, List.exists_mem_cons_iff, ← or_assoc,
      or_comm (a := d.record.name = name)]

theorem contains_known (t : Tree) (name : String) :
    (known t).contains name = true ↔ ∃ d ∈ definitions t, d.record.name = name := by
  rw [known, contains_foldl_insertFunction]
  simp [CallSet.contains, CallSet.empty]

/-! ## One definition for each name -/

/-- The callees of the definitions of a name, in their order. -/
def calleesNamed (name : String) (entries : List (FunctionRecord × NameSet)) : List NameSet :=
  entries.filterMap fun (record, callees) => if record.name = name then some callees else none

theorem calleesNamed_self (record : FunctionRecord) (callees : NameSet)
    (rest : List (FunctionRecord × NameSet)) :
    calleesNamed record.name ((record, callees) :: rest) =
      callees :: calleesNamed record.name rest := by
  simp [calleesNamed]

theorem calleesNamed_ne {record : FunctionRecord} {name : String} (h : record.name ≠ name)
    (callees : NameSet) (rest : List (FunctionRecord × NameSet)) :
    calleesNamed name ((record, callees) :: rest) = calleesNamed name rest := by
  simp [calleesNamed, h]

/-- The last definition of a name gives it its callees. -/
theorem assignCalls_lastWins (entries : List (FunctionRecord × NameSet)) : ∀ seen calls,
    ∃ result, assignCalls .lastWins seen entries calls = .ok result ∧
      result.contains = calls.contains ∧
      ∀ name, calls.contains name = true → result.callees? name =
        ((calleesNamed name entries).getLast?.map (·.filter calls.contains)).or
          (calls.callees? name) := by
  induction entries with
  | nil =>
    intro seen calls
    exact ⟨calls, rfl, rfl, fun _ _ => rfl⟩
  | cons entry rest ih =>
    obtain ⟨record, callees⟩ := entry
    intro seen calls
    -- Whether the name was met before makes no difference to the calls.
    obtain ⟨seen', hstep⟩ : ∃ seen',
        assignCalls .lastWins seen ((record, callees) :: rest) calls =
          assignCalls .lastWins seen' rest (calls.setCallees record.name callees) := by
      rw [assignCalls]
      cases seen[record.name]? with
      | none => exact ⟨_, rfl⟩
      | some _ => exact ⟨_, rfl⟩
    obtain ⟨result, hok, hcontains, hcallees⟩ := ih seen' (calls.setCallees record.name callees)
    rw [CallSet.contains_setCallees] at hcontains hcallees
    refine ⟨result, hstep.trans hok, hcontains, fun name hname => ?_⟩
    rw [hcallees name hname]
    by_cases hn : record.name = name
    · subst hn
      rw [CallSet.callees?_setCallees_self hname, calleesNamed_self, List.getLast?_cons]
      cases (calleesNamed record.name rest).getLast? <;> rfl
    · rw [CallSet.callees?_setCallees_ne _ hn, calleesNamed_ne hn]

/-- The first definition of a name that was not met before gives it its callees. -/
theorem assignCalls_firstWins (entries : List (FunctionRecord × NameSet)) : ∀ seen calls,
    ∃ result, assignCalls .firstWins seen entries calls = .ok result ∧
      result.contains = calls.contains ∧
      ∀ name, calls.contains name = true → result.callees? name =
        if name ∈ seen then calls.callees? name
        else ((calleesNamed name entries).head?.map (·.filter calls.contains)).or
          (calls.callees? name) := by
  induction entries with
  | nil =>
    intro seen calls
    exact ⟨calls, rfl, rfl, fun _ _ => by simp [calleesNamed]⟩
  | cons entry rest ih =>
    obtain ⟨record, callees⟩ := entry
    intro seen calls
    rw [assignCalls]
    cases hseen : seen[record.name]? with
    | none =>
      have hfresh : record.name ∉ seen := by
        rw [Std.ExtTreeMap.mem_iff_isSome_getElem?, hseen]
        exact nofun
      obtain ⟨result, hok, hcontains, hcallees⟩ :=
        ih (seen.insert record.name record.startLine) (calls.setCallees record.name callees)
      rw [CallSet.contains_setCallees] at hcontains hcallees
      refine ⟨result, hok, hcontains, fun name hname => ?_⟩
      rw [hcallees name hname]
      by_cases hn : record.name = name
      · subst hn
        rw [CallSet.callees?_setCallees_self hname, calleesNamed_self, if_neg hfresh,
          if_pos Std.ExtTreeMap.mem_insert_self]
        rfl
      · rw [CallSet.callees?_setCallees_ne _ hn, calleesNamed_ne hn]
        simp [Std.ExtTreeMap.mem_insert, hn]
    | some firstLine =>
      -- a name met before keeps what it has, so that the definition changes nothing
      have hmet : record.name ∈ seen := by
        rw [Std.ExtTreeMap.mem_iff_isSome_getElem?, hseen]
        rfl
      obtain ⟨result, hok, hcontains, hcallees⟩ := ih seen calls
      refine ⟨result, hok, hcontains, fun name hname => ?_⟩
      rw [hcallees name hname]
      by_cases hn : record.name = name
      · subst hn
        rw [if_pos hmet, if_pos hmet]
      · rw [calleesNamed_ne hn]

end CallAtlas.Extraction
