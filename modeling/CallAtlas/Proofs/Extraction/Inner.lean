import CallAtlas.Proofs.Agreement
import CallAtlas.Proofs.Extraction.Duplicates

/-!
# Functions inside functions

A definition owns what the definitions inside it own, their decorators included. So a function calls
what it calls itself, outside the functions inside it, and what the functions directly inside it call;
what an inner function calls is called by all functions around it.
-/

namespace CallAtlas

open CallAtlas.Graph Syntax

namespace Syntax.Tree

/-- A function is defined at a place inside the definition at another place. -/
def Inner (t : Tree) (p r : Place) : Prop := p <+: r ∧ p ≠ r ∧ ∃ name, t.Defines r name

/-- An inner function with no other one around it inside the outer definition. -/
def DirectlyInner (t : Tree) (p r : Place) : Prop :=
  t.Inner p r ∧ ∀ q, t.Inner p q → q <+: r → q = r

/-- A place that a definition owns and that lies in no function inside it. -/
def OwnsItself (t : Tree) (p q : Place) : Prop := t.Owns p q ∧ ∀ r, t.Inner p r → ¬ r <+: q

variable {t : Tree} {p q r : Place}

/-- The decorators of an inner function stand inside the outer one, too. -/
theorem Inner.owns (h : t.Inner p r) (hq : t.Owns r q) : t.Owns p q := by
  obtain ⟨hpr, hne, -⟩ := h
  rcases hq with hrq | ⟨d, ⟨above, i, j, -, -, rfl, rfl, -⟩, hdq⟩
  · exact .inl (hpr.trans hrq)
  · have habove : p <+: above := (List.prefix_concat_iff.1 hpr).resolve_left hne
    exact .inl (habove.trans ((List.prefix_append above [j]).trans hdq))

/-- Around an inner function or at its place there is one directly inside the outer definition. -/
theorem Inner.exists_directly (h : t.Inner p r) : ∃ s, t.DirectlyInner p s ∧ s <+: r := by
  -- from a function with another one around it to that one, which has a shorter place
  induction hlength : r.length using Nat.strong_induction_on generalizing r with
  | h length ih =>
    by_cases hdirect : ∀ q, t.Inner p q → q <+: r → q = r
    · exact ⟨r, ⟨h, hdirect⟩, List.prefix_refl r⟩
    · push Not at hdirect
      obtain ⟨q, hq, hqr, hne⟩ := hdirect
      have hshorter : q.length < length := by
        rw [← hlength]
        exact lt_of_le_of_ne hqr.length_le fun heq => hne (hqr.eq_of_length heq)
      obtain ⟨s, hs, hsq⟩ := ih q.length hshorter hq rfl
      exact ⟨s, hs, hsq.trans hqr⟩

/-- A definition owns what it owns itself and what the functions directly inside it own. -/
theorem owns_iff_inner : t.Owns p q ↔
    t.OwnsItself p q ∨ ∃ r, t.DirectlyInner p r ∧ t.Owns r q := by
  constructor
  · intro h
    by_cases hitself : ∀ r, t.Inner p r → ¬ r <+: q
    · exact .inl ⟨h, hitself⟩
    · push Not at hitself
      obtain ⟨r, hr, hrq⟩ := hitself
      obtain ⟨s, hs, hsr⟩ := hr.exists_directly
      exact .inr ⟨s, hs, .inl (hsr.trans hrq)⟩
  · rintro (⟨h, -⟩ | ⟨r, ⟨hr, -⟩, hq⟩)
    · exact h
    · exact hr.owns hq

/-- A function of the program is called by its bare name at a place that the definition owns itself. -/
def CallsItself (t : Tree) (p : Place) (name : String) : Prop :=
  (∃ q, t.Defines q name) ∧
    ∃ q m, t.OwnsItself p q ∧ t.root.nodeAt? q = some m ∧ m.CallsName t.source name

end Syntax.Tree

namespace Extraction

variable {t : Tree}

/-- Where no name is repeated each function calls what is called at the places that it owns. -/
theorem exists_calls_of_unique
    (hunique : ∀ p q name, t.Defines p name → t.Defines q name → p = q) :
    ∃ e, (∀ policy, ofTree policy t = .ok e) ∧ ∀ p caller, t.Defines p caller →
      ∃ callees, e.calls.callees? caller = some callees ∧ ∀ name, name ∈ callees ↔
        (∃ q, t.Defines q name) ∧
          ∃ q m, t.Owns p q ∧ t.root.nodeAt? q = some m ∧ m.CallsName t.source name := by
  obtain ⟨e, he⟩ := exists_ofTree_of_unique hunique
  obtain ⟨last, hlast, -, hcallees⟩ := exists_calls (nofun : DuplicatePolicy.lastWins ≠ .reject) t
  obtain rfl : e = last := Except.ok.inj ((he .lastWins).symm.trans hlast)
  refine ⟨e, he, fun p caller hp => ?_⟩
  obtain ⟨callees, hresult, q, definition, hq, hdefinition, hmem⟩ := hcallees caller ⟨p, hp⟩
  obtain rfl := hunique p q caller hp hq.1
  refine ⟨callees, hresult, fun name => ?_⟩
  rw [hmem, callsFrom_iff_owns hdefinition]

/-- Calls inside functions propagate outwards, no more and no less. Where no name is repeated, a function
calls the functions of the program that it calls itself or in its decorators, and those that the
functions directly inside it call. So it calls whatever a function anywhere inside it calls. -/
theorem calls_propagate (hunique : ∀ p q name, t.Defines p name → t.Defines q name → p = q) :
    ∃ e, (∀ policy, ofTree policy t = .ok e) ∧ ∀ p outer, t.Defines p outer →
      ∃ callees, e.calls.callees? outer = some callees ∧
        (∀ name, name ∈ callees ↔ t.CallsItself p name ∨
          ∃ r inner others, t.DirectlyInner p r ∧ t.Defines r inner ∧
            e.calls.callees? inner = some others ∧ name ∈ others) ∧
        ∀ r inner, t.Inner p r → t.Defines r inner →
          ∃ others, e.calls.callees? inner = some others ∧ ∀ name ∈ others, name ∈ callees := by
  obtain ⟨e, he, hcalls⟩ := exists_calls_of_unique hunique
  refine ⟨e, he, fun p outer hp => ?_⟩
  obtain ⟨callees, hcallees, hmem⟩ := hcalls p outer hp
  have hinner : ∀ r inner, t.Inner p r → t.Defines r inner →
      ∃ others, e.calls.callees? inner = some others ∧ ∀ name ∈ others, name ∈ callees := by
    intro r inner hr hname
    obtain ⟨others, hothers, hmem'⟩ := hcalls r inner hname
    refine ⟨others, hothers, fun name hcall => ?_⟩
    obtain ⟨hknown, q, m, hq, hm⟩ := (hmem' name).1 hcall
    exact (hmem name).2 ⟨hknown, q, m, hr.owns hq, hm⟩
  refine ⟨callees, hcallees, fun name => ⟨fun hcall => ?_, ?_⟩, hinner⟩
  · obtain ⟨hknown, q, m, hq, hm, hname⟩ := (hmem name).1 hcall
    rcases Tree.owns_iff_inner.1 hq with hitself | ⟨r, hr, hrq⟩
    · exact .inl ⟨hknown, q, m, hitself, hm, hname⟩
    · obtain ⟨inner, hdefines⟩ := hr.1.2.2
      obtain ⟨others, hothers, hmem'⟩ := hcalls r inner hdefines
      exact .inr ⟨r, inner, others, hr, hdefines, hothers,
        (hmem' name).2 ⟨hknown, q, m, hrq, hm, hname⟩⟩
  · rintro (⟨hknown, q, m, hitself, hm, hname⟩ | ⟨r, inner, others, hr, hdefines, hothers, hcall⟩)
    · exact (hmem name).2 ⟨hknown, q, m, hitself.1, hm, hname⟩
    · obtain ⟨others', hothers', hsubset⟩ := hinner r inner hr.1 hdefines
      obtain rfl := Option.some.inj (hothers.symm.trans hothers')
      exact hsubset name hcall

theorem calls_propagate_decoratedProgram :
    (∀ p q name, decoratedProgram.Defines p name → decoratedProgram.Defines q name → p = q) ∧
    ∃ e, (∀ policy, ofTree policy decoratedProgram = .ok e) ∧
      ∀ p outer, decoratedProgram.Defines p outer → ∃ callees,
        e.calls.callees? outer = some callees ∧ ∀ r inner, decoratedProgram.Inner p r →
          decoratedProgram.Defines r inner → ∃ others,
            e.calls.callees? inner = some others ∧ ∀ name ∈ others, name ∈ callees := by
  have hunique : ∀ p q name, decoratedProgram.Defines p name →
      decoratedProgram.Defines q name → p = q := by
    have hnames : (definitions decoratedProgram).map (·.record.name) = ["f", "g"] := by rfl
    rw [← nodup_resolved_iff, names_resolved, hnames]
    decide
  obtain ⟨e, he, hcalls⟩ := calls_propagate hunique
  refine ⟨hunique, e, he, fun p outer hp => ?_⟩
  obtain ⟨callees, hcallees, -, hinner⟩ := hcalls p outer hp
  exact ⟨callees, hcallees, hinner⟩

end Extraction

end CallAtlas
