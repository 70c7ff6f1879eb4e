import CallAtlas.Proofs.Dependencies.Scopes
import CallAtlas.Proofs.Extraction.Graph

/-!
# The two analyses agree

The call graph gives a call to the definition that is chosen for a name, whatever stands between, and
the dependency graph to the scope of the call. So a call leads from its scope in the one wherever it
leads from the chosen definition in the other, and the two graphs share the calls of which the scope is
itself a chosen function.
-/

namespace CallAtlas

open CallAtlas.Graph Syntax

variable {t : Tree} {p q : Place} {m : Node} {name : String}

theorem Syntax.Node.CallsName.loosely (h : m.CallsName t.source name) :
    m.CallsLoosely t.source name := by
  obtain ⟨function, hc, hkind, hname⟩ := h
  exact ⟨function, hc, .inl ⟨hkind, hname⟩⟩

/-- A call is no definition. -/
theorem Syntax.Node.CallsName.definition?_eq_none (h : m.CallsName t.source name) :
    m.definition? t.source = none := by
  obtain ⟨function, hc, -⟩ := h
  simp only [definition?, hc]

/-- A call inside a definition is a dependency of that definition or of one inside it. -/
theorem exists_edge_of_call_within {caller : String} (hp : t.Defines p caller) (hpq : p <+: q)
    (hm : t.root.nodeAt? q = some m) (hcall : m.CallsName t.source name) :
    ∃ r s kind, p <+: r ∧ r <+: q ∧ t.DefinesAs r s kind ∧
      ⟨s, name⟩ ∈ (Dependencies.ofTree t).edges := by
  have hdefines := Tree.defines_iff_definesAs.1 hp
  have hne : p ≠ q := by
    rintro rfl
    obtain ⟨k, hk, hd⟩ := hdefines
    obtain rfl := Option.some.inj (hm.symm.trans hk)
    rw [hcall.definition?_eq_none] at hd
    cases hd
  obtain ⟨r, hr, hpr⟩ := Tree.exists_encloses hdefines hpq hne
  obtain ⟨k, -, rfl, ⟨s, kind, hs⟩, -⟩ := id hr
  exact ⟨q.take k, s, kind, hpr, List.take_prefix k q, hs,
    Dependencies.edge_of_encloses hm hcall.loosely hr hs⟩

/-- What the call graph and the dependency graph of a program have in common. -/
structure Agree (policy : DuplicatePolicy) (t : Tree) (strict : CallGraph)
    (loose : DependencyGraph) : Prop where
  /-- Every function of the call graph is defined in the dependency graph. -/
  defined : ∀ name ∈ strict.nodes, loose.kindOf? name = some .function ∨
    loose.kindOf? name = some .classDefinition
  /-- Every edge of the call graph comes from a call in the chosen definition or its decorators, which
  is a dependency of its scope if it has one. -/
  inScope : ∀ caller name, ⟨caller, name⟩ ∈ strict.edges → ∃ p q m,
    policy.Chooses t p caller ∧ t.Owns p q ∧ t.root.nodeAt? q = some m ∧
    m.CallsName t.source name ∧
    ∀ r scope kind, t.Encloses r q → t.DefinesAs r scope kind → ⟨scope, name⟩ ∈ loose.edges
  /-- A call inside a definition is a dependency of that definition or of one inside it. -/
  within : ∀ p caller q m name, t.Defines p caller → p <+: q → t.root.nodeAt? q = some m →
    m.CallsName t.source name → ∃ r scope kind, p <+: r ∧ r <+: q ∧ t.DefinesAs r scope kind ∧
      ⟨scope, name⟩ ∈ loose.edges
  /-- A call to a function of the program, the scope of which is a function, is a dependency of that
  function, and an edge of the call graph if that function is the one chosen for its name. -/
  shared : ∀ q m name r scope, t.root.nodeAt? q = some m → m.CallsName t.source name →
    name ∈ strict.nodes → t.Encloses r q → t.DefinesAs r scope .function →
      ⟨scope, name⟩ ∈ loose.edges ∧
      (policy.Chooses t r scope → ⟨scope, name⟩ ∈ strict.edges)

/-- The call graph of a program that keeps repeated definitions agrees with its dependency graph. -/
theorem strict_and_loose_agree {policy : DuplicatePolicy} (hpolicy : policy ≠ .reject) (t : Tree) :
    ∃ e, Extraction.ofTree policy t = .ok e ∧
      Agree policy t (.ofCallSet e.calls) (Dependencies.ofTree t) := by
  obtain ⟨e, he, hnodes, hcalls⟩ := Extraction.exists_callGraph hpolicy t
  refine ⟨e, he, ?_, ?_, ?_, ?_⟩
  · intro name hname
    obtain ⟨p, hp⟩ := (hnodes name).1 hname
    exact Dependencies.kindOf?_of_definesAs (Tree.defines_iff_definesAs.1 hp)
  · intro caller name hedge
    obtain ⟨-, p, q, m, hp, hq, hm, hcall⟩ := (hcalls caller name).1 hedge
    exact ⟨p, q, m, hp, hq, hm, hcall, fun r scope kind hr hscope =>
      Dependencies.edge_of_encloses hm hcall.loosely hr hscope⟩
  · intro p caller q m name hp hpq hm hcall
    exact exists_edge_of_call_within hp hpq hm hcall
  · intro q m name r scope hm hcall hname hr hscope
    refine ⟨Dependencies.edge_of_encloses hm hcall.loosely hr hscope, fun hchosen => ?_⟩
    obtain ⟨k, -, rfl, -⟩ := hr
    exact (hcalls scope name).2 ⟨(hnodes name).1 hname, _, q, m, hchosen,
      .inl (List.take_prefix k q), hm, hcall⟩

/-- The tree of a decorated function `f` with a function `g` inside, each of which calls the other.
Words and signs without a part of their own are left out. -/
def decoratedProgram : Tree where
  source := .ofText "@g()\ndef f():\n    def g(): f()"
  root :=
    let leaf (kind : Kind) (field : Option Field) (row column start stop : Nat) : Node :=
      .node { kind, named := true, field, start := ⟨start, row, column⟩,
              stop := ⟨stop, row, column + (stop - start)⟩ } []
    let inner (kind : Kind) (row column start : Nat) (stop : Text.Position)
        (children : List Node) : Node :=
      .node { kind, named := true, start := ⟨start, row, column⟩, stop } children
    let call (row column start : Nat) : Node :=
      inner .call row column start ⟨start + 3, row, column + 3⟩
        [leaf .identifier (some .function) row column start (start + 1),
          leaf (.other "argument_list") (some (.other "arguments")) row (column + 1) (start + 1)
            (start + 3)]
    let stop : Text.Position := ⟨30, 2, 16⟩
    inner (.other "module") 0 0 0 stop
      [inner .decoratedDefinition 0 0 0 stop
        [inner .decorator 0 0 0 ⟨4, 0, 4⟩ [call 0 1 1],
          inner .functionDefinition 1 0 5 stop
            [leaf .identifier (some .name) 1 4 9 10,
              inner .block 2 4 18 stop
                [inner .functionDefinition 2 4 18 stop
                  [leaf .identifier (some .name) 2 8 22 23,
                    inner .block 2 13 27 stop [call 2 13 27]]]]]]

theorem strict_and_loose_agree_decoratedProgram : DuplicatePolicy.firstWins ≠ .reject ∧
    ∃ e, Extraction.ofTree .firstWins decoratedProgram = .ok e ∧
      Agree .firstWins decoratedProgram (.ofCallSet e.calls)
        (Dependencies.ofTree decoratedProgram) :=
  ⟨by decide, strict_and_loose_agree (by decide) decoratedProgram⟩

end CallAtlas
