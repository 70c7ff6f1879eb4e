import CallAtlas.Proofs.Command.Answers
import CallAtlas.Proofs.Dependencies.Scopes
import CallAtlas.Proofs.Extraction.Duplicates
import CallAtlas.Proofs.Syntax.Acceptance

/-!
# How programs are classified

The commands that list functions and calls come to their verdict on a program by extracting it, `deps`
comes to its own by the graph of its dependencies. `Verdicts` says what the two come to in each case,
and so how far they agree.
-/

namespace CallAtlas

open CallAtlas.Graph Syntax Text

/-! ## Programs without definitions -/

namespace Syntax.Tree

/-- Some name is defined by two functions. -/
def DefinesTwice (t : Tree) : Prop := ∃ p q name, p ≠ q ∧ t.Defines p name ∧ t.Defines q name

/-- What is defined is a function or a class. -/
theorem DefinesAs.kind_eq {t : Tree} {p : Place} {name : String} {kind : NameKind}
    (h : t.DefinesAs p name kind) : kind = .function ∨ kind = .classDefinition := by
  obtain ⟨m, -, hd⟩ := h
  rw [Node.definition?] at hd
  split at hd
  · exact .inl (congrArg Prod.snd (Option.some.inj hd)).symm
  · exact .inr (congrArg Prod.snd (Option.some.inj hd)).symm
  · cases hd

end Syntax.Tree

namespace Extraction

variable {t : Tree}

theorem isEmpty_withCalls_iff {calls : CallSet} :
    (withCalls t calls).isEmpty = true ↔ ∀ p name, ¬ t.Defines p name := by
  rw [isEmpty, withCalls, List.isEmpty_iff, List.map_eq_nil_iff, definitions_eq,
    List.filterMap_eq_nil_iff]
  constructor
  · intro h p name hp
    obtain ⟨d, hd, -⟩ := defines_iff.1 hp
    rw [h p (mem_places_of_defines hp)] at hd
    cases hd
  · intro h p _
    refine Option.eq_none_iff_forall_ne_some.2 fun d hd => ?_
    exact h p d.record.name (defines_iff.2 ⟨d, hd, rfl⟩)

/-- Extraction fails only for a repeated name, and only if the policy is to refuse these. -/
theorem ofTree_cases (policy : DuplicatePolicy) (t : Tree) :
    (policy = .reject ∧ t.DefinesTwice ∧
        ∃ name first second, ofTree policy t = .error (.duplicateFunction name first second)) ∨
      (policy = .reject → ¬ t.DefinesTwice) ∧ ∃ calls, ofTree policy t = .ok (withCalls t calls) := by
  by_cases hunique : ∀ p q name, t.Defines p name → t.Defines q name → p = q
  · refine .inr ⟨?_, _, ofTree_of_assignCalls (assignCalls_of_nodup policy
      (nodup_resolved_iff.2 hunique) (known t))⟩
    rintro - ⟨p, q, name, hne, hp, hq⟩
    exact hne (hunique p q name hp hq)
  · by_cases hpolicy : policy = .reject
    · subst hpolicy
      obtain ⟨p, q, name, first, second, hp, hq, hpq, -, -, -, -, herror⟩ :=
        ofTree_reject_of_repeat hunique
      exact .inl ⟨rfl, ⟨p, q, name, ne_of_lt hpq, hp, hq⟩, name, _, _, herror⟩
    · obtain ⟨calls, hcalls, -⟩ := assignCalls_exact hpolicy t
      exact .inr ⟨fun h => absurd h hpolicy, calls, ofTree_of_assignCalls hcalls⟩

end Extraction

namespace Dependencies

/-- Every name of the graph stands there because of some definition. -/
theorem nodeCount_ofTree_eq_zero_iff {t : Tree} :
    (ofTree t).nodeCount = 0 ↔ ∀ p name kind, ¬ t.DefinesAs p name kind := by
  have hempty : (ofTree t).nodeCount = 0 ↔ ∀ n, n ∉ (ofTree t).nodes := by
    rw [DependencyGraph.nodeCount, ← Std.ExtTreeMap.eq_empty_iff_size_eq_zero,
      Std.ExtTreeMap.eq_empty_iff_forall_not_mem]
  rw [hempty]
  constructor
  · rintro h p name kind ⟨m, hm, hd⟩
    exact h name (mem_nodes_ofTree.2 (.inl ⟨p, m, kind, hm, hd⟩))
  · intro h n hn
    rcases mem_nodes_ofTree.1 hn with ⟨p, m, kind, hm, hd⟩ | ⟨⟨s, d⟩, he, -⟩
    · exact h p n kind ⟨m, hm, hd⟩
    · rcases mem_edges_ofTree.1 he with ⟨p, m, hm, identifier, _, hc, -, -⟩ | ⟨p, m, -, -, hscope⟩
      · exact h p _ .classDefinition ⟨m, hm, by rw [Node.definition?, hc]⟩
      · obtain ⟨r, kind, -, hr⟩ := Tree.innermostAround_iff.1 hscope
        exact h r s kind hr

end Dependencies

/-! ## The two verdicts -/

/-- How a command ends that comes to an answer and can deliver it. -/
def Answer.status : Answer → Status
  | result _ => .success
  | nothing _ => .nothingFound
  | refused (.syntaxError _) => .parseFailed
  | refused _ => .failed

namespace Analyzer

/-- The verdict of the commands that list functions or calls. -/
def listingStatus (a : Analyzer) (source : Source) : Status :=
  (a.reportAnswer (fun _ => "") source).status

/-- The verdict of the command that shows dependencies. -/
def dependencyStatus (a : Analyzer) (source : Source) : Status :=
  (a.dependencyAnswer source).status

/-- What the two verdicts on a program are, the one of listings first. -/
inductive Verdicts (a : Analyzer) (source : Source) : Status → Status → Prop
  | wrong {d : Diagnostic} :
      Tree.parse a.grammar a.settings.parsing source = .error (.syntaxError d) →
      Verdicts a source .parseFailed .parseFailed
  | refused {failure : Failure} :
      Tree.parse a.grammar a.settings.parsing source = .error failure →
      (∀ d, failure ≠ .syntaxError d) → Verdicts a source .failed .failed
  | nothing {t : Tree} : Tree.parse a.grammar a.settings.parsing source = .ok t →
      (∀ p name kind, ¬ t.DefinesAs p name kind) →
      Verdicts a source .nothingFound .nothingFound
  | classes {t : Tree} : Tree.parse a.grammar a.settings.parsing source = .ok t →
      (∃ p name, t.DefinesAs p name .classDefinition) → (∀ p name, ¬ t.Defines p name) →
      Verdicts a source .nothingFound .success
  | repeated {t : Tree} : Tree.parse a.grammar a.settings.parsing source = .ok t →
      a.settings.parsing.duplicatePolicy = .reject → t.DefinesTwice →
      Verdicts a source .failed .success
  | functions {t : Tree} : Tree.parse a.grammar a.settings.parsing source = .ok t →
      (∃ p name, t.Defines p name) →
      (a.settings.parsing.duplicatePolicy = .reject → ¬ t.DefinesTwice) →
      Verdicts a source .success .success

variable {a : Analyzer} {source : Source}

theorem status_reportAnswer (render : Analysis → String) :
    (a.reportAnswer render source).status = a.listingStatus source := by
  rw [listingStatus, reportAnswer, reportAnswer]
  cases a.analyze source <;> rfl

theorem listingStatus_of_error {failure : Failure} (h : a.extract source = .error failure) :
    a.listingStatus source = (Answer.refused failure).status := by
  rw [listingStatus, reportAnswer, analyze, h]
  cases failure <;> rfl

theorem listingStatus_of_ok {e : Extraction} (h : a.extract source = .ok e) :
    a.listingStatus source = if e.isEmpty then .nothingFound else .success := by
  simp only [listingStatus, reportAnswer, analyze, h]
  cases e.isEmpty <;> rfl

theorem dependencyStatus_of_error {failure : Failure}
    (h : a.dependencies source = .error failure) :
    a.dependencyStatus source = (Answer.refused failure).status := by
  rw [dependencyStatus, dependencyAnswer, h]

theorem dependencyStatus_of_ok {graph : DependencyGraph} (h : a.dependencies source = .ok graph) :
    a.dependencyStatus source = if graph.nodeCount = 0 then .nothingFound else .success := by
  rw [dependencyStatus, dependencyAnswer, h]
  by_cases hcount : graph.nodeCount = 0 <;> simp [hcount, Answer.status]

/-- The verdicts on an accepted program follow from what it defines. -/
theorem verdicts_of_ok {t : Tree} (h : Tree.parse a.grammar a.settings.parsing source = .ok t) :
    Verdicts a source (a.listingStatus source) (a.dependencyStatus source) := by
  have hextract : a.extract source = Extraction.ofTree a.settings.parsing.duplicatePolicy t := by
    rw [extract, Extraction.ofSource, h]
  have hdependencies : a.dependencies source = .ok (Dependencies.ofTree t) := by
    rw [dependencies, Dependencies.ofSource, h]
  have hsuccess : ∀ {p name kind}, t.DefinesAs p name kind → a.dependencyStatus source = .success :=
    fun hp => by
      rw [dependencyStatus_of_ok hdependencies, if_neg]
      exact fun hcount => Dependencies.nodeCount_ofTree_eq_zero_iff.1 hcount _ _ _ hp
  rcases Extraction.ofTree_cases a.settings.parsing.duplicatePolicy t with
    ⟨hpolicy, htwice, name, first, second, herror⟩ | ⟨honce, calls, hok⟩
  · obtain ⟨p, -, f, -, hp, -⟩ := id htwice
    rw [listingStatus_of_error (hextract.trans herror), hsuccess (Tree.defines_iff_definesAs.1 hp)]
    exact .repeated h hpolicy htwice
  · rw [listingStatus_of_ok (hextract.trans hok)]
    by_cases hfunction : ∃ p name, t.Defines p name
    · obtain ⟨p, name, hp⟩ := id hfunction
      rw [if_neg fun hempty => Extraction.isEmpty_withCalls_iff.1 hempty p name hp,
        hsuccess (Tree.defines_iff_definesAs.1 hp)]
      exact .functions h hfunction honce
    · push Not at hfunction
      rw [if_pos (Extraction.isEmpty_withCalls_iff.2 hfunction)]
      by_cases hany : ∃ p name kind, t.DefinesAs p name kind
      · obtain ⟨p, name, kind, hp⟩ := hany
        rw [hsuccess hp]
        rcases hp.kind_eq with rfl | rfl
        · exact absurd (Tree.defines_iff_definesAs.2 hp) (hfunction p name)
        · exact .classes h ⟨p, name, hp⟩ hfunction
      · push Not at hany
        rw [dependencyStatus_of_ok hdependencies,
          if_pos (Dependencies.nodeCount_ofTree_eq_zero_iff.2 hany)]
        exact .nothing h hany

theorem verdicts (a : Analyzer) (source : Source) :
    Verdicts a source (a.listingStatus source) (a.dependencyStatus source) := by
  cases h : Tree.parse a.grammar a.settings.parsing source with
  | ok t => exact verdicts_of_ok h
  | error failure =>
    have hextract : a.extract source = .error failure := by
      rw [extract, Extraction.ofSource, h]
    have hdependencies : a.dependencies source = .error failure := by
      rw [dependencies, Dependencies.ofSource, h]
    rw [listingStatus_of_error hextract, dependencyStatus_of_error hdependencies]
    cases failure with
    | syntaxError d => exact .wrong h
    | _ => exact .refused h (by simp)

end Analyzer

end CallAtlas
