import CallAtlas.Proofs.Dependencies.Exact
import CallAtlas.Proofs.Extraction.Exact
import Mathlib.Data.Nat.Find

/-!
# Scopes

The scope of a call is the innermost definition around it. Below a definition there always is one: the
definition itself or one inside it.
-/

namespace CallAtlas

open CallAtlas.Graph Syntax Text

namespace Syntax.Tree

/-- A function or a class with a name is defined at a place of a program. -/
def DefinesAs (t : Tree) (p : Place) (name : String) (kind : NameKind) : Prop :=
  ∃ m, t.root.nodeAt? p = some m ∧ m.definition? t.source = some (name, kind)

/-- The definition at a place is the innermost one around another place. -/
def Encloses (t : Tree) (r q : Place) : Prop :=
  ∃ k < q.length, r = q.take k ∧ (∃ name kind, t.DefinesAs r name kind) ∧
    ∀ j, k < j → j < q.length → ∀ name kind, ¬ t.DefinesAs (q.take j) name kind

variable {t : Tree} {p q r : Place} {name : String}

theorem defines_iff_definesAs : t.Defines p name ↔ t.DefinesAs p name .function := by
  constructor
  · rintro ⟨m, identifier, isAsync, hm, hc, hname⟩
    exact ⟨m, hm, by simp only [Node.definition?, hc, hname]⟩
  · rintro ⟨m, hm, hd⟩
    cases hc : m.construct with
    | function identifier isAsync =>
      rw [Node.definition?, hc] at hd
      exact ⟨m, identifier, isAsync, hm, hc, congrArg Prod.fst (Option.some.inj hd)⟩
    | classDefinition _ _ | call _ | other => simp [Node.definition?, hc] at hd

theorem not_definesAs_iff : (∀ name kind, ¬ t.DefinesAs p name kind) ↔
    ∀ m, t.root.nodeAt? p = some m → m.definition? t.source = none := by
  constructor
  · intro h m hm
    refine Option.eq_none_iff_forall_ne_some.2 fun d hd => ?_
    exact h d.1 d.2 ⟨m, hm, hd⟩
  · rintro h name kind ⟨m, hm, hd⟩
    rw [h m hm] at hd
    cases hd

theorem innermostAround_iff : Node.InnermostAround t.source t.root q name ↔
    ∃ r kind, t.Encloses r q ∧ t.DefinesAs r name kind := by
  constructor
  · rintro ⟨k, hk, ⟨d, kind, hd, hname⟩, hlast⟩
    refine ⟨q.take k, kind, ⟨k, hk, rfl, ⟨name, kind, d, hd, hname⟩, fun j hkj hj => ?_⟩,
      d, hd, hname⟩
    exact not_definesAs_iff.2 (hlast j hkj hj)
  · rintro ⟨_, kind, ⟨k, hk, rfl, -, hlast⟩, d, hd, hname⟩
    exact ⟨k, hk, ⟨d, kind, hd, hname⟩, fun j hkj hj => not_definesAs_iff.1 (hlast j hkj hj)⟩

/-- Below a definition the innermost one is that definition or one inside it. -/
theorem exists_encloses {kind : NameKind} (hp : t.DefinesAs p name kind) (hpq : p <+: q)
    (hne : p ≠ q) : ∃ r, t.Encloses r q ∧ p <+: r := by
  classical
  have hlength : p.length < q.length :=
    lt_of_le_of_ne hpq.length_le fun h => hne (hpq.eq_of_length h)
  have htake : p = q.take p.length := List.prefix_iff_eq_take.1 hpq
  -- the longest beginning of the place that leads to a definition
  let leads (k : Nat) : Prop := ∃ name kind, t.DefinesAs (q.take k) name kind
  have hleads : leads p.length := ⟨name, kind, by rwa [← htake]⟩
  have hbound : p.length ≤ q.length - 1 := by omega
  have hge : p.length ≤ Nat.findGreatest leads (q.length - 1) :=
    Nat.le_findGreatest hbound hleads
  have hle : Nat.findGreatest leads (q.length - 1) ≤ q.length - 1 := Nat.findGreatest_le _
  refine ⟨q.take (Nat.findGreatest leads (q.length - 1)),
    ⟨_, by omega, rfl, Nat.findGreatest_spec hbound hleads, fun j hj hjq name kind hd => ?_⟩, ?_⟩
  · exact Nat.findGreatest_is_greatest hj (by omega) ⟨name, kind, hd⟩
  · rw [htake]
    exact List.take_prefix_take_left hge

end Syntax.Tree

namespace Dependencies

variable {t : Tree}

/-- Every call by a bare name or by the name of a member is a dependency of its scope. -/
theorem edge_of_encloses {q r : Place} {m : Node} {name callee : String} {kind : NameKind}
    (hm : t.root.nodeAt? q = some m) (hcall : m.CallsLoosely t.source callee)
    (hr : t.Encloses r q) (hname : t.DefinesAs r name kind) :
    ⟨name, callee⟩ ∈ (ofTree t).edges :=
  mem_edges_ofTree.2 (.inr ⟨q, m, hm, hcall, Tree.innermostAround_iff.2 ⟨r, kind, hr, hname⟩⟩)

/-- A name that is defined is no mere reference. -/
theorem kindOf?_of_definesAs {p : Place} {name : String} {kind : NameKind}
    (h : t.DefinesAs p name kind) :
    (ofTree t).kindOf? name = some .function ∨ (ofTree t).kindOf? name = some .classDefinition := by
  obtain ⟨m, hm, hd⟩ := h
  have hdefined : DependencyGraph.definedKind (mentions t) name ≠ none := fun hnone =>
    definedKind_mentions_eq_none_iff.1 hnone p m kind hm hd
  obtain ⟨first, hfirst⟩ := Option.ne_none_iff_exists'.1 hdefined
  have hkind : (ofTree t).kindOf? name = some first := by
    rw [ofTree_eq_build, DependencyGraph.kindOf?_build, ← mentions, hfirst, Option.some_or]
  have hne := DependencyGraph.definedKind_ne_referenced (mentions t) name
  rw [hfirst] at hne
  rw [hkind]
  cases first with
  | function => exact .inl rfl
  | classDefinition => exact .inr rfl
  | referenced => exact absurd rfl hne

end Dependencies

end CallAtlas
