import CallAtlas.Proofs.Extraction.Exact
import CallAtlas.Proofs.Graph.OfCallSet

/-!
# The call graph of a program

The nodes of the call graph are the functions that the program defines, and an edge says that the
definition which the policy has chosen for a name calls another function. The calls that count as those
of a definition stand at the places that it owns: its own subtree and its decorators.
-/

namespace CallAtlas

open CallAtlas.Graph Syntax

/-- The definition at a place is the one that the policy chooses for a name. -/
def DuplicatePolicy.Chooses (policy : DuplicatePolicy) (t : Tree) (p : Place) (name : String) :
    Prop :=
  t.Defines p name ∧ ∀ q, t.Defines q name → policy.Prefers p q

/-- A policy chooses at most one definition for a name. -/
theorem DuplicatePolicy.Chooses.unique {policy : DuplicatePolicy} {t : Tree} {p q : Place}
    {name : String} (hp : policy.Chooses t p name) (hq : policy.Chooses t q name) : p = q := by
  have hpq := hp.2 q hq.1
  have hqp := hq.2 p hp.1
  cases policy with
  | lastWins => exact le_antisymm hqp hpq
  | firstWins => exact le_antisymm hpq hqp
  | reject => exact hpq

namespace Syntax

/-- The node at a place decorates the definition at another place. -/
def Tree.DecoratesAt (t : Tree) (r p : Place) : Prop :=
  ∃ above i j parent decorator, p = above ++ [i] ∧ r = above ++ [j] ∧
    t.root.nodeAt? above = some parent ∧ parent.kind = .decoratedDefinition ∧
    parent.children[j]? = some decorator ∧ decorator.listedNamed = true ∧
    decorator.kind = .decorator

/-- A place lies inside the definition at a place or inside one of its decorators. -/
def Tree.Owns (t : Tree) (p q : Place) : Prop := p <+: q ∨ ∃ r, t.DecoratesAt r p ∧ r <+: q

theorem Node.within_iff_prefix {root n m : Node} {p : Place} (h : root.nodeAt? p = some n) :
    Node.Within m n ↔ ∃ q, p <+: q ∧ root.nodeAt? q = some m := by
  constructor
  · rintro ⟨q, hq⟩
    refine ⟨p ++ q, List.prefix_append p q, ?_⟩
    rw [nodeAt?_append, h, Option.bind_some, hq]
  · rintro ⟨_, ⟨q, rfl⟩, hq⟩
    rw [nodeAt?_append, h, Option.bind_some] at hq
    exact ⟨q, hq⟩

theorem Tree.decorates_iff {t : Tree} {p : Place} {decorator : Node} :
    t.root.Decorates p decorator ↔
      ∃ r, t.DecoratesAt r p ∧ t.root.nodeAt? r = some decorator := by
  constructor
  · rintro ⟨above, i, parent, rfl, hparent, hkind, hmem, hnamed, hdecorator⟩
    obtain ⟨j, hj⟩ := List.mem_iff_getElem?.1 hmem
    refine ⟨above ++ [j], ⟨above, i, j, parent, decorator, rfl, rfl, hparent, hkind, hj, hnamed,
      hdecorator⟩, ?_⟩
    rw [Node.nodeAt?_append, hparent, Option.bind_some, Node.nodeAt?_cons hj, Node.nodeAt?_nil]
  · rintro ⟨_, ⟨above, i, j, parent, other, rfl, rfl, hparent, hkind, hj, hnamed, hother⟩, hr⟩
    rw [Node.nodeAt?_append, hparent, Option.bind_some, Node.nodeAt?_cons hj,
      Node.nodeAt?_nil] at hr
    obtain rfl := Option.some.inj hr
    exact ⟨above, i, parent, rfl, hparent, hkind, List.mem_of_getElem? hj, hnamed, hother⟩

end Syntax

namespace Extraction

variable {policy : DuplicatePolicy} {t : Tree}

/-- What a definition calls stands at the places that it owns. -/
theorem callsFrom_iff_owns {p : Place} {definition : Node} {name : String}
    (h : t.root.nodeAt? p = some definition) : CallsFrom t p definition name ↔
      ∃ q m, t.Owns p q ∧ t.root.nodeAt? q = some m ∧ m.CallsName t.source name := by
  constructor
  · rintro ⟨m, hcall, hwithin | ⟨decorator, hdecorates, hwithin⟩⟩
    · obtain ⟨q, hpq, hq⟩ := (Node.within_iff_prefix h).1 hwithin
      exact ⟨q, m, .inl hpq, hq, hcall⟩
    · obtain ⟨r, hr, hdecorator⟩ := Tree.decorates_iff.1 hdecorates
      obtain ⟨q, hrq, hq⟩ := (Node.within_iff_prefix hdecorator).1 hwithin
      exact ⟨q, m, .inr ⟨r, hr, hrq⟩, hq, hcall⟩
  · rintro ⟨q, m, hpq | ⟨r, hr, hrq⟩, hq, hcall⟩
    · exact ⟨m, hcall, .inl ((Node.within_iff_prefix h).2 ⟨q, hpq, hq⟩)⟩
    · obtain ⟨s, rfl⟩ := hrq
      obtain ⟨decorator, hdecorator⟩ := Node.nodeAt?_of_append hq
      exact ⟨m, hcall, .inr ⟨decorator, Tree.decorates_iff.2 ⟨r, hr, hdecorator⟩,
        (Node.within_iff_prefix hdecorator).2 ⟨_, List.prefix_append r s, hq⟩⟩⟩

theorem contains_known_iff {name : String} :
    (known t).contains name = true ↔ ∃ p, t.Defines p name := by
  constructor
  · exact exists_defines
  · rintro ⟨p, hp⟩
    obtain ⟨d, hd, hname⟩ := defines_iff.1 hp
    refine (contains_known t name).2 ⟨d, ?_, hname⟩
    rw [definitions_eq, List.mem_filterMap]
    exact ⟨p, mem_places_of_defines hp, hd⟩

/-- Some callees are those of the definition that is chosen for a name. -/
def CalleesOf (policy : DuplicatePolicy) (t : Tree) (caller : String) (callees : NameSet) : Prop :=
  ∃ p definition, policy.Chooses t p caller ∧ t.root.nodeAt? p = some definition ∧
    ∀ name, name ∈ callees ↔ (∃ q, t.Defines q name) ∧ CallsFrom t p definition name

theorem calleesOf_filter {p : Place} {caller : String} {callees : NameSet}
    (hp : calleesAt t caller p = some callees) (hchosen : policy.Chooses t p caller) :
    CalleesOf policy t caller (callees.filter (known t).contains) := by
  obtain ⟨d, hd, -, rfl⟩ := calleesAt_eq_some_iff.1 hp
  obtain ⟨m, identifier, isAsync, hm, hc, rfl⟩ := exists_of_definitionOf hd
  refine ⟨p, m, hchosen, hm, fun name => ?_⟩
  rw [NameSet.mem_filter, mem_calleesOf, contains_known_iff, CallsFrom]
  simp only [definitionBy, Node.mem_decorators_iff hm]
  exact ⟨And.left, fun h => ⟨h, h.1⟩⟩

/-- The functions of the calls are those that the program defines, each with the callees of its chosen
definition. -/
theorem exists_calls (hpolicy : policy ≠ .reject) (t : Tree) : ∃ e, ofTree policy t = .ok e ∧
    (∀ name, e.calls.contains name = true ↔ ∃ p, t.Defines p name) ∧
    ∀ name, (∃ p, t.Defines p name) →
      ∃ callees, e.calls.callees? name = some callees ∧ CalleesOf policy t name callees := by
  obtain ⟨calls, hok, hcontains, hcallees⟩ := assignCalls_exact hpolicy t
  refine ⟨_, by rw [ofTree_eq, hok]; rfl, fun name => ?_, fun name hname => ?_⟩
  · rw [hcontains, contains_known_iff]
  · obtain ⟨p, callees, hp, hprefers, hresult⟩ := hcallees name (contains_known_iff.2 hname)
    have hdefines : t.Defines p name :=
      calleesAt_ne_none_iff.1 (Option.ne_none_iff_exists'.2 ⟨callees, hp⟩)
    exact ⟨_, hresult, calleesOf_filter hp ⟨hdefines, hprefers⟩⟩

/-- The call graph has the functions of the program for nodes, and an edge from a name to each function
that is called at a place which the definition chosen for the name owns. -/
theorem exists_callGraph (hpolicy : policy ≠ .reject) (t : Tree) : ∃ e, ofTree policy t = .ok e ∧
    (∀ name, name ∈ (CallGraph.ofCallSet e.calls).nodes ↔ ∃ p, t.Defines p name) ∧
    ∀ caller name, (CallGraph.ofCallSet e.calls).Calls caller name ↔
      (∃ q, t.Defines q name) ∧ ∃ p q m, policy.Chooses t p caller ∧ t.Owns p q ∧
        t.root.nodeAt? q = some m ∧ m.CallsName t.source name := by
  obtain ⟨e, he, hcontains, hcallees⟩ := exists_calls hpolicy t
  refine ⟨e, he, fun name => ?_, fun caller name => ?_⟩
  · rw [CallGraph.mem_nodes_ofCallSet, hcontains]
  · rw [CallGraph.calls_ofCallSet, hcontains]
    refine and_congr_right fun hname => ?_
    constructor
    · rintro ⟨callees, hresult, hmem⟩
      have hcaller : ∃ p, t.Defines p caller := by
        rw [← hcontains, CallSet.contains, Std.ExtTreeMap.contains_iff_mem,
          Std.ExtTreeMap.mem_iff_isSome_getElem?]
        exact Option.isSome_iff_exists.2 ⟨callees, hresult⟩
      obtain ⟨others, hothers, p, d, hp, hd, hiff⟩ := hcallees caller hcaller
      obtain rfl := Option.some.inj (hresult.symm.trans hothers)
      obtain ⟨q, m, hq, hm, hcall⟩ := (callsFrom_iff_owns hd).1 ((hiff name).1 hmem).2
      exact ⟨p, q, m, hp, hq, hm, hcall⟩
    · rintro ⟨p, q, m, hp, hq, hm, hcall⟩
      obtain ⟨callees, hresult, r, d, hr, hd, hiff⟩ := hcallees caller ⟨p, hp.1⟩
      obtain rfl := hp.unique hr
      refine ⟨callees, hresult, (hiff name).2 ⟨hname, ?_⟩⟩
      exact (callsFrom_iff_owns hd).2 ⟨q, m, hq, hm, hcall⟩

end Extraction

end CallAtlas
