import CallAtlas.Proofs.Extraction.Calls
import Mathlib.Data.List.Lex

/-!
# Extraction is exact

What is extracted from a program is what stands in its tree: a record for each definition of a function,
in the order of the text, and for each name the functions of the program that its chosen definition
calls, no more and no fewer.
-/

namespace CallAtlas

open CallAtlas.Graph Syntax

/-- A function with a name is defined at a place of a program. -/
def Syntax.Tree.Defines (t : Tree) (p : Place) (name : String) : Prop :=
  ∃ definition identifier isAsync, t.root.nodeAt? p = some definition ∧
    definition.construct = .function identifier isAsync ∧ identifier.text t.source = name

/-- Of the places where a name is defined the policy prefers one. -/
def DuplicatePolicy.Prefers (policy : DuplicatePolicy) (p q : Place) : Prop :=
  match policy with
  | .lastWins => q ≤ p
  | .firstWins => p ≤ q
  | .reject => p = q

namespace Extraction

/-- A definition calls a function by its bare name, in itself or in one of its decorators. -/
def CallsFrom (t : Tree) (p : Place) (definition : Node) (name : String) : Prop :=
  ∃ m, m.CallsName t.source name ∧ (Node.Within m definition ∨
    ∃ decorator, t.root.Decorates p decorator ∧ Node.Within m decorator)

/-- What is extracted says what stands in the tree of the program and nothing else. -/
structure Exact (policy : DuplicatePolicy) (t : Tree) (e : Extraction) : Prop where
  /-- There is one record for each definition, in the order of the text. -/
  functions : ∃ places : List Place, places.Pairwise (· < ·) ∧
    (∀ p, p ∈ places ↔ ∃ definition identifier isAsync, t.root.nodeAt? p = some definition ∧
      definition.construct = .function identifier isAsync) ∧
    List.Forall₂ (Records t) places e.functions
  names : ∀ name, name ∈ e.calls.names ↔ ∃ r ∈ e.functions, r.name = name
  /-- The callees of a name are the functions of the program that its chosen definition calls. -/
  callees : ∀ caller ∈ e.calls.names, ∃ p definition callees,
    t.Defines p caller ∧ (∀ q, t.Defines q caller → policy.Prefers p q) ∧
    t.root.nodeAt? p = some definition ∧ e.calls.callees? caller = some callees ∧
    ∀ name, name ∈ callees ↔ name ∈ e.calls.names ∧ CallsFrom t p definition name

/-! ## The chosen definition -/

section Chosen

variable {t : Tree}

theorem defines_iff {p : Place} {name : String} :
    t.Defines p name ↔ ∃ d, definitionOf t p = some d ∧ d.record.name = name := by
  constructor
  · rintro ⟨m, identifier, isAsync, hm, hc, rfl⟩
    exact ⟨_, definitionOf_of_construct hm hc, name_definitionBy ..⟩
  · rintro ⟨d, hd, rfl⟩
    obtain ⟨m, identifier, isAsync, hm, hc, rfl⟩ := exists_of_definitionOf hd
    exact ⟨m, identifier, isAsync, hm, hc, (name_definitionBy ..).symm⟩

/-- The callees of the definition of a name at a place. -/
def calleesAt (t : Tree) (name : String) (p : Place) : Option NameSet :=
  (definitionOf t p).bind fun d =>
    if d.record.name = name then some (calleesOf t.source (known t) d) else none

theorem calleesAt_eq_some_iff {name : String} {p : Place} {callees : NameSet} :
    calleesAt t name p = some callees ↔ ∃ d, definitionOf t p = some d ∧ d.record.name = name ∧
      calleesOf t.source (known t) d = callees := by
  simp [calleesAt, Option.bind_eq_some_iff]

theorem calleesAt_ne_none_iff {name : String} {p : Place} :
    calleesAt t name p ≠ none ↔ t.Defines p name := by
  rw [Option.ne_none_iff_exists', defines_iff]
  simp only [calleesAt_eq_some_iff]
  constructor
  · rintro ⟨_, d, hd, hname, -⟩
    exact ⟨d, hd, hname⟩
  · rintro ⟨d, hd, hname⟩
    exact ⟨_, d, hd, hname, rfl⟩

theorem mem_places_of_defines {name : String} {p : Place} (h : t.Defines p name) :
    p ∈ t.root.places := by
  obtain ⟨m, -, -, hm, -⟩ := h
  exact Node.mem_places.2 ⟨m, hm⟩

theorem exists_defines {name : String} (h : (known t).contains name = true) :
    ∃ p, t.Defines p name := by
  obtain ⟨d, hd, hname⟩ := (contains_known t name).1 h
  rw [definitions_eq, List.mem_filterMap] at hd
  obtain ⟨p, -, hp⟩ := hd
  exact ⟨p, defines_iff.2 ⟨d, hp, hname⟩⟩

/-- Of some places in an order, among them all that define a name of the program, the first one that
does has callees, and no other one stands before it. -/
theorem exists_findSome?_calleesAt {r : Place → Place → Prop} {l : List Place} (hl : l.Pairwise r)
    (hall : ∀ p, p ∈ t.root.places → p ∈ l) {name : String} (h : (known t).contains name = true) :
    ∃ p callees, l.findSome? (calleesAt t name) = some callees ∧ calleesAt t name p = some callees ∧
      ∀ q, t.Defines q name → p = q ∨ r p q := by
  obtain ⟨p₀, hp₀⟩ := exists_defines h
  have hne : l.findSome? (calleesAt t name) ≠ none := by
    intro hnone
    have hcallees := List.findSome?_eq_none_iff.1 hnone p₀ (hall p₀ (mem_places_of_defines hp₀))
    exact calleesAt_ne_none_iff.2 hp₀ hcallees
  obtain ⟨callees, hcallees⟩ := Option.ne_none_iff_exists'.1 hne
  obtain ⟨p, -, hp, hfirst⟩ := findSome?_first hl hcallees
  refine ⟨p, callees, hcallees, hp, fun q hq => ?_⟩
  exact hfirst q (hall q (mem_places_of_defines hq)) (calleesAt_ne_none_iff.2 hq)

theorem calleesNamed_resolved (t : Tree) (name : String) :
    calleesNamed name (resolved t) = t.root.places.filterMap (calleesAt t name) := by
  rw [calleesNamed, resolved, List.filterMap_map, definitions_eq, List.filterMap_filterMap]
  rfl

end Chosen

/-- The calls are given to the names as the policy says: those of the definition it prefers. -/
theorem assignCalls_exact {policy : DuplicatePolicy} (hpolicy : policy ≠ .reject) (t : Tree) :
    ∃ result, assignCalls policy ∅ (resolved t) (known t) = .ok result ∧
      result.contains = (known t).contains ∧
      ∀ name, (known t).contains name = true → ∃ p callees,
        calleesAt t name p = some callees ∧ (∀ q, t.Defines q name → policy.Prefers p q) ∧
        result.callees? name = some (callees.filter (known t).contains) := by
  cases policy with
  | lastWins =>
    obtain ⟨result, hok, hcontains, hcallees⟩ := assignCalls_lastWins (resolved t) ∅ (known t)
    refine ⟨result, hok, hcontains, fun name hname => ?_⟩
    -- the last definition is the first one when the places are taken from the end
    obtain ⟨p, callees, hfind, hp, hlast⟩ := exists_findSome?_calleesAt
      (List.pairwise_reverse.2 t.root.places_ascending) (fun _ => List.mem_reverse.2) hname
    refine ⟨p, callees, hp, fun q hq => ?_, ?_⟩
    · exact (hlast q hq).elim (fun h => h ▸ le_rfl) le_of_lt
    · rw [hcallees name hname, calleesNamed_resolved, List.getLast?_filterMap, hfind]
      rfl
  | firstWins =>
    obtain ⟨result, hok, hcontains, hcallees⟩ := assignCalls_firstWins (resolved t) ∅ (known t)
    refine ⟨result, hok, hcontains, fun name hname => ?_⟩
    obtain ⟨p, callees, hfind, hp, hfirst⟩ := exists_findSome?_calleesAt
      t.root.places_ascending (fun _ => id) hname
    refine ⟨p, callees, hp, fun q hq => ?_, ?_⟩
    · exact (hfirst q hq).elim (fun h => h ▸ le_rfl) le_of_lt
    · rw [hcallees name hname, calleesNamed_resolved, List.head?_filterMap, hfind]
      simp
  | reject => exact absurd rfl hpolicy

/-- A program of which no definition is refused has one record for each definition, in the order of the
text, and the names of these records call what their chosen definitions call by a bare name: in
themselves, whatever stands around the call, and in their decorators. -/
theorem ofTree_exact {policy : DuplicatePolicy} (hpolicy : policy ≠ .reject) (t : Tree) :
    ∃ e, ofTree policy t = .ok e ∧ Exact policy t e := by
  obtain ⟨calls, hok, hcontains, hcallees⟩ := assignCalls_exact hpolicy t
  have hknown : ∀ name, name ∈ calls.names ↔ (known t).contains name = true := by
    intro name
    rw [CallSet.mem_names, hcontains]
  refine ⟨_, by rw [ofTree_eq, hok]; rfl, exists_places_records t, ?_, ?_⟩
  · intro name
    rw [hknown, contains_known]
    simp
  · intro caller hcaller
    obtain ⟨p, callees, hp, hprefers, hresult⟩ := hcallees caller ((hknown caller).1 hcaller)
    obtain ⟨d, hd, hname, rfl⟩ := calleesAt_eq_some_iff.1 hp
    obtain ⟨m, identifier, isAsync, hm, hc, rfl⟩ := exists_of_definitionOf hd
    refine ⟨p, m, _, defines_iff.2 ⟨_, hd, hname⟩, hprefers, hm, hresult, fun name => ?_⟩
    rw [NameSet.mem_filter, mem_calleesOf, hknown, CallsFrom]
    simp only [definitionBy, Node.mem_decorators_iff hm]
    constructor
    · exact And.left
    · rintro ⟨hkey, hcalls⟩
      exact ⟨⟨hkey, hcalls⟩, hkey⟩

/-- The tree of `def f(): f()`. -/
def recursiveProgram : Tree where
  source := .ofText "def f(): f()"
  root :=
    let leaf (kind : Kind) (field : Option Field) (start stop : Nat) : Node :=
      .node { kind, named := true, field, start := ⟨start, 0, start⟩, stop := ⟨stop, 0, stop⟩ } []
    let inner (kind : Kind) (start stop : Nat) (children : List Node) : Node :=
      .node { kind, named := true, start := ⟨start, 0, start⟩, stop := ⟨stop, 0, stop⟩ } children
    inner (.other "module") 0 12
      [inner .functionDefinition 0 12
        [leaf .identifier (some .name) 4 5,
          inner .block 9 12
            [inner .call 9 12
              [leaf .identifier (some .function) 9 10,
                leaf (.other "argument_list") (some (.other "arguments")) 10 12]]]]

theorem ofTree_exact_recursiveProgram : DuplicatePolicy.lastWins ≠ .reject ∧
    ∃ e, ofTree .lastWins recursiveProgram = .ok e ∧ Exact .lastWins recursiveProgram e :=
  ⟨by decide, ofTree_exact (by decide) recursiveProgram⟩

end Extraction

end CallAtlas
