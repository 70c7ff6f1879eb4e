import CallAtlas.Proofs.Extraction.Exact
import Mathlib.Data.List.Induction
import Mathlib.Data.List.Nodup
import Mathlib.Data.List.Pairwise

/-!
# Functions that are defined more than once

As long as no name is repeated all policies do the same. The policies part at the first definition that
repeats an earlier name: there `reject` reports the two, and the others only choose whose calls count.
-/

namespace CallAtlas.Extraction

open CallAtlas.Graph Syntax

/-! ## Names that are not repeated -/

/-- The lines of the first definitions, after some definitions of different names. -/
def remember (entries : List (FunctionRecord × NameSet)) (seen : Std.ExtTreeMap String Nat) :
    Std.ExtTreeMap String Nat :=
  entries.foldl (fun seen e => seen.insert e.1.name e.1.startLine) seen

/-- The calls after some definitions of different names. -/
def assignAll (entries : List (FunctionRecord × NameSet)) (calls : CallSet) : CallSet :=
  entries.foldl (fun calls e => calls.setCallees e.1.name e.2) calls

/-- Whatever the policy is, definitions of new names are treated in the same way. -/
theorem assignCalls_append (policy : DuplicatePolicy) (rest : List (FunctionRecord × NameSet))
    {before : List (FunctionRecord × NameSet)} (hnodup : (before.map (·.1.name)).Nodup) :
    ∀ seen calls, (∀ e ∈ before, e.1.name ∉ seen) →
      assignCalls policy seen (before ++ rest) calls =
        assignCalls policy (remember before seen) rest (assignAll before calls) := by
  induction before with
  | nil => exact fun _ _ _ => rfl
  | cons e before ih =>
    obtain ⟨record, callees⟩ := e
    rw [List.map_cons, List.nodup_cons] at hnodup
    obtain ⟨hname, hnodup⟩ := hnodup
    intro seen calls hfresh
    have hnew : seen[record.name]? = none :=
      Std.ExtTreeMap.getElem?_eq_none (hfresh (record, callees) (by simp))
    rw [List.cons_append, assignCalls, hnew]
    refine ih hnodup _ _ fun e he => ?_
    rw [Std.ExtTreeMap.mem_insert, not_or]
    refine ⟨fun heq => hname ?_, hfresh e (by simp [he])⟩
    rw [Std.compare_eq_iff_eq.1 heq]
    exact List.mem_map_of_mem he

theorem getElem?_remember_of_not_mem {entries : List (FunctionRecord × NameSet)} {name : String}
    (h : name ∉ entries.map (·.1.name)) : ∀ seen, (remember entries seen)[name]? = seen[name]? := by
  induction entries with
  | nil => exact fun _ => rfl
  | cons e entries ih =>
    rw [List.map_cons, List.mem_cons, not_or] at h
    intro seen
    rw [remember, List.foldl_cons]
    refine (ih h.2 _).trans ?_
    simp [Std.ExtTreeMap.getElem?_insert, Ne.symm h.1]

theorem getElem?_remember {entries : List (FunctionRecord × NameSet)}
    (hnodup : (entries.map (·.1.name)).Nodup) {e : FunctionRecord × NameSet} (he : e ∈ entries) :
    ∀ seen, (remember entries seen)[e.1.name]? = some e.1.startLine := by
  induction entries with
  | nil => cases he
  | cons d entries ih =>
    rw [List.map_cons, List.nodup_cons] at hnodup
    intro seen
    rw [remember, List.foldl_cons]
    rcases List.mem_cons.1 he with rfl | he
    · refine (getElem?_remember_of_not_mem hnodup.1 _).trans ?_
      simp
    · exact ih hnodup.2 he _

/-! ## The first name that is repeated -/

theorem exists_first_repeat {α β : Type} (key : α → β) {l : List α} (h : ¬ (l.map key).Nodup) :
    ∃ before a after, l = before ++ a :: after ∧ (before.map key).Nodup ∧
      ∃ b ∈ before, key b = key a := by
  induction l using List.reverseRecOn with
  | nil => exact absurd List.nodup_nil h
  | append_singleton l a ih =>
    by_cases hl : (l.map key).Nodup
    · refine ⟨l, a, [], rfl, hl, ?_⟩
      by_contra hnew
      refine h ?_
      rw [List.map_append, List.map_singleton, ← List.concat_eq_append, List.nodup_concat]
      refine ⟨fun hmem => hnew ?_, hl⟩
      obtain ⟨b, hb, hkey⟩ := List.mem_map.1 hmem
      exact ⟨b, hb, hkey⟩
    · obtain ⟨before, b, after, rfl, hbefore, hrepeat⟩ := ih hl
      exact ⟨before, b, after ++ [a], by simp, hbefore, hrepeat⟩

/-- Definitions of different names are all accepted. -/
theorem assignCalls_of_nodup (policy : DuplicatePolicy) {entries : List (FunctionRecord × NameSet)}
    (h : (entries.map (·.1.name)).Nodup) (calls : CallSet) :
    assignCalls policy ∅ entries calls = .ok (assignAll entries calls) := by
  have happend := assignCalls_append policy [] h ∅ calls fun _ _ => Std.ExtTreeMap.not_mem_empty
  rw [List.append_nil] at happend
  rw [happend, assignCalls]

/-- The first definition that repeats a name is refused, with the line of the earlier one. -/
theorem assignCalls_reject {before after : List (FunctionRecord × NameSet)}
    {a b : FunctionRecord × NameSet} (hbefore : (before.map (·.1.name)).Nodup) (hb : b ∈ before)
    (hname : b.1.name = a.1.name) (calls : CallSet) :
    assignCalls .reject ∅ (before ++ a :: after) calls =
      .error (.duplicateFunction a.1.name b.1.startLine a.1.startLine) := by
  have hseen := getElem?_remember hbefore hb ∅
  rw [assignCalls_append .reject _ hbefore ∅ calls fun _ _ => Std.ExtTreeMap.not_mem_empty]
  rw [hname] at hseen
  obtain ⟨record, callees⟩ := a
  rw [assignCalls, hseen]

/-! ## The definitions of a program -/

section Program

variable {t : Tree}

/-- All definitions of a program, with some calls. -/
def withCalls (t : Tree) (calls : CallSet) : Extraction where
  functions := (definitions t).map (·.record)
  calls := calls
  contentHash := Digest.hex t.source.bytes

theorem ofTree_of_assignCalls {policy : DuplicatePolicy} {calls : CallSet}
    (h : assignCalls policy ∅ (resolved t) (known t) = .ok calls) :
    ofTree policy t = .ok (withCalls t calls) := by
  rw [ofTree_eq, h]
  rfl

theorem names_resolved (t : Tree) :
    (resolved t).map (·.1.name) = (definitions t).map (·.record.name) := by
  simp [resolved]

/-- The definitions at some places have different names if no two of the places define one name. -/
theorem nodup_names_iff {l : List Place} (hl : l.Nodup) :
    ((l.filterMap (definitionOf t)).map (·.record.name)).Nodup ↔
      ∀ p ∈ l, ∀ q ∈ l, ∀ name, t.Defines p name → t.Defines q name → p = q := by
  rw [List.Nodup, List.pairwise_map, List.pairwise_filterMap]
  constructor
  · intro h p hp q hq name hpname hqname
    by_contra hne
    obtain ⟨d, hd, hdname⟩ := defines_iff.1 hpname
    obtain ⟨e, he, hename⟩ := defines_iff.1 hqname
    have hsymm : Std.Symm fun a b => ∀ d, definitionOf t a = some d → ∀ e,
        definitionOf t b = some e → d.record.name ≠ e.record.name :=
      ⟨fun _ _ hab d hd e he => (hab e he d hd).symm⟩
    exact h.forall hp hq hne d hd e he (hdname.trans hename.symm)
  · intro h
    refine hl.pairwise_of_forall_ne fun p hp q hq hne d hd e he heq => hne ?_
    exact h p hp q hq d.record.name (defines_iff.2 ⟨d, hd, rfl⟩) (defines_iff.2 ⟨e, he, heq.symm⟩)

theorem nodup_places (n : Node) : n.places.Nodup := n.places_ascending.imp ne_of_lt

theorem nodup_resolved_iff : ((resolved t).map (·.1.name)).Nodup ↔
    ∀ p q name, t.Defines p name → t.Defines q name → p = q := by
  rw [names_resolved, definitions_eq, nodup_names_iff (nodup_places t.root)]
  constructor
  · intro h p q name hp hq
    exact h p (mem_places_of_defines hp) q (mem_places_of_defines hq) name hp hq
  · exact fun h p _ q _ => h p q

/-- A place defines a name that is defined before. -/
def Repeats (t : Tree) (q : Place) : Prop := ∃ p < q, ∃ name, t.Defines p name ∧ t.Defines q name

/-- The places before the first definition that repeats a name. -/
theorem exists_places_before_repeat
    (h : ¬ ∀ p q name, t.Defines p name → t.Defines q name → p = q) :
    ∃ (before : List Place) (q : Place) (second : Definition) (after : List Definition),
      definitions t = before.filterMap (definitionOf t) ++ second :: after ∧
      ((before.filterMap (definitionOf t)).map (·.record.name)).Nodup ∧ before.Nodup ∧
      definitionOf t q = some second ∧ (∃ first ∈ before.filterMap (definitionOf t),
        first.record.name = second.record.name) ∧
      ∀ r, (∃ name, t.Defines r name) → (r ∈ before ↔ r < q) := by
  rw [← nodup_resolved_iff, names_resolved] at h
  obtain ⟨ds, second, after, hsplit, hnodup, hrepeat⟩ := exists_first_repeat _ h
  have hplaces := hsplit
  rw [definitions_eq, List.filterMap_eq_append_iff] at hplaces
  obtain ⟨before, rest, hplaces, rfl, hrest⟩ := hplaces
  obtain ⟨between, q, behind, rfl, hnone, hsecond, -⟩ := List.filterMap_eq_cons_iff.1 hrest
  have hascending := t.root.places_ascending
  rw [hplaces, List.pairwise_append] at hascending
  obtain ⟨hbefore, hrest, hcross⟩ := hascending
  refine ⟨before, q, second, after, hsplit, hnodup, hbefore.imp ne_of_lt, hsecond, hrepeat, ?_⟩
  rintro r ⟨name, hr⟩
  refine ⟨fun hmem => hcross r hmem q (by simp), fun hlt => ?_⟩
  have hmem := mem_places_of_defines hr
  obtain ⟨d, hd, -⟩ := defines_iff.1 hr
  rw [hplaces, List.mem_append, List.mem_append, List.mem_cons] at hmem
  rcases hmem with hmem | hmem | rfl | hmem
  · exact hmem
  · -- nothing is defined between
    rw [hnone r hmem] at hd
    cases hd
  · exact absurd hlt (lt_irrefl r)
  · have hbehind := (List.pairwise_cons.1 (List.pairwise_append.1 hrest).2.1).1 r hmem
    exact absurd (hlt.trans hbehind) (lt_irrefl r)

theorem exists_defines_iff {p : Place} : (∃ name, t.Defines p name) ↔
    ∃ definition identifier isAsync, t.root.nodeAt? p = some definition ∧
      definition.construct = .function identifier isAsync := by
  constructor
  · rintro ⟨name, definition, identifier, isAsync, hm, hc, -⟩
    exact ⟨definition, identifier, isAsync, hm, hc⟩
  · rintro ⟨definition, identifier, isAsync, hm, hc⟩
    exact ⟨_, definition, identifier, isAsync, hm, hc, rfl⟩

theorem exists_node_of_definitionOf {p : Place} {d : Definition} (h : definitionOf t p = some d) :
    ∃ m, t.root.nodeAt? p = some m ∧ d.record.startLine = m.start.line := by
  obtain ⟨m, name, isAsync, hm, -, rfl⟩ := exists_of_definitionOf h
  exact ⟨m, hm, rfl⟩

/-- The first definition that repeats a name is refused, with the one definition of the name before. -/
theorem ofTree_reject_of_repeat
    (h : ¬ ∀ p q name, t.Defines p name → t.Defines q name → p = q) :
    ∃ p q name first second, t.Defines p name ∧ t.Defines q name ∧ p < q ∧
      (∀ r < q, t.Defines r name → r = p) ∧ IsLeast {r | Repeats t r} q ∧
      t.root.nodeAt? p = some first ∧ t.root.nodeAt? q = some second ∧
      ofTree .reject t =
        .error (.duplicateFunction name first.start.line second.start.line) := by
  obtain ⟨before, q, second, after, hsplit, hnodup, hbefore, hq, ⟨first, hfirst, hname⟩, hmem⟩ :=
    exists_places_before_repeat h
  obtain ⟨p, hp, hpfirst⟩ := List.mem_filterMap.1 hfirst
  have hdefp : t.Defines p second.record.name := defines_iff.2 ⟨first, hpfirst, hname⟩
  have hdefq : t.Defines q second.record.name := defines_iff.2 ⟨second, hq, rfl⟩
  have hpq : p < q := (hmem p ⟨_, hdefp⟩).1 hp
  have hunique : ∀ r < q, ∀ s < q, ∀ name, t.Defines r name → t.Defines s name → r = s :=
    fun r hr s hs name hrname hsname => (nodup_names_iff hbefore).1 hnodup r
      ((hmem r ⟨name, hrname⟩).2 hr) s ((hmem s ⟨name, hsname⟩).2 hs) name hrname hsname
  obtain ⟨m, hm, hmline⟩ := exists_node_of_definitionOf hpfirst
  obtain ⟨k, hk, hkline⟩ := exists_node_of_definitionOf hq
  refine ⟨p, q, second.record.name, m, k, hdefp, hdefq, hpq,
    fun r hr hrname => hunique r hr p hpq _ hrname hdefp, ⟨⟨p, hpq, _, hdefp, hdefq⟩, ?_⟩, hm, hk, ?_⟩
  · rintro r ⟨s, hsr, name, hs, hr⟩
    by_contra hrq
    have hrq := lt_of_not_ge hrq
    exact ne_of_lt hsr (hunique s (hsr.trans hrq) r hrq name hs hr)
  · have hresolved : resolved t =
        (before.filterMap (definitionOf t)).map (fun d => (d.record, calleesOf t.source (known t) d))
          ++ (second.record, calleesOf t.source (known t) second) ::
            after.map fun d => (d.record, calleesOf t.source (known t) d) := by
      rw [resolved, hsplit, List.map_append, List.map_cons]
    have hentry : (first.record, calleesOf t.source (known t) first) ∈
        (before.filterMap (definitionOf t)).map
          fun d => (d.record, calleesOf t.source (known t) d) :=
      List.mem_map.2 ⟨first, hfirst, rfl⟩
    rw [ofTree_eq, hresolved, assignCalls_reject (by rwa [List.map_map]) hentry hname, ← hmline,
      ← hkline]
    rfl

/-- Without a repeated name there is one result for all policies. -/
theorem exists_ofTree_of_unique (h : ∀ p q name, t.Defines p name → t.Defines q name → p = q) :
    ∃ e, ∀ policy, ofTree policy t = .ok e :=
  ⟨withCalls t (assignAll (resolved t) (known t)), fun policy =>
    ofTree_of_assignCalls (assignCalls_of_nodup policy (nodup_resolved_iff.2 h) (known t))⟩

/-- A name with one definition has the same calls whether the first or the last definition counts. -/
theorem exists_assignCalls_agree (t : Tree) : ∃ last first,
    assignCalls .lastWins ∅ (resolved t) (known t) = .ok last ∧
    assignCalls .firstWins ∅ (resolved t) (known t) = .ok first ∧
    ∀ name, (∀ p q, t.Defines p name → t.Defines q name → p = q) →
      last.callees? name = first.callees? name := by
  obtain ⟨last, hlast, hlastknown, hlastcalls⟩ :=
    assignCalls_exact (nofun : DuplicatePolicy.lastWins ≠ .reject) t
  obtain ⟨first, hfirst, hfirstknown, hfirstcalls⟩ :=
    assignCalls_exact (nofun : DuplicatePolicy.firstWins ≠ .reject) t
  refine ⟨last, first, hlast, hfirst, fun name hunique => ?_⟩
  by_cases hname : (known t).contains name = true
  · obtain ⟨p, callees, hp, -, hcallees⟩ := hlastcalls name hname
    obtain ⟨q, others, hq, -, hothers⟩ := hfirstcalls name hname
    obtain rfl : p = q := hunique p q
      (calleesAt_ne_none_iff.1 (Option.ne_none_iff_exists'.2 ⟨callees, hp⟩))
      (calleesAt_ne_none_iff.1 (Option.ne_none_iff_exists'.2 ⟨others, hq⟩))
    obtain rfl := Option.some.inj (hp.symm.trans hq)
    rw [hcallees, hothers]
  · rw [(last.callees?_eq_none_iff name).2 (by rwa [hlastknown]),
      (first.callees?_eq_none_iff name).2 (by rwa [hfirstknown])]

theorem eq_placesOfDefinitions {places : List Place} (hascending : places.Pairwise (· < ·))
    (h : ∀ p, p ∈ places ↔ ∃ name, t.Defines p name) : places = placesOfDefinitions t := by
  have hascending' := placesOfDefinitions_ascending t
  refine List.Perm.eq_of_pairwise (fun _ _ _ _ hpq hqp => absurd hqp (lt_asymm hpq)) hascending
    hascending' ?_
  refine (List.perm_ext_iff_of_nodup (hascending.imp ne_of_lt) (hascending'.imp ne_of_lt)).2
    fun p => ?_
  rw [h, mem_placesOfDefinitions, exists_defines_iff]

/-- The records of an accepted program are those of its definitions. What holds of these at their places
holds of the program. -/
theorem ofTree_records {P : List Place → List FunctionRecord → Prop}
    (h : P (placesOfDefinitions t) ((definitions t).map (·.record))) (policy : DuplicatePolicy) :
    (policy ≠ .reject → ∃ e, ofTree policy t = .ok e) ∧
    ∀ e, ofTree policy t = .ok e → ∃ places : List Place, places.Pairwise (· < ·) ∧
      (∀ p, p ∈ places ↔ ∃ name, t.Defines p name) ∧
      List.Forall₂ (Records t) places e.functions ∧ P places e.functions := by
  refine ⟨fun hpolicy => ?_, fun e he => ?_⟩
  · obtain ⟨calls, hcalls, -⟩ := assignCalls_exact hpolicy t
    exact ⟨_, ofTree_of_assignCalls hcalls⟩
  · rw [functions_of_ofTree he]
    refine ⟨placesOfDefinitions t, placesOfDefinitions_ascending t, fun p => ?_, ?_, h⟩
    · rw [mem_placesOfDefinitions, exists_defines_iff]
    · rw [List.forall₂_map_right_iff]
      exact (forall₂_definitions t).imp fun _ _ hd => records_of_definitionOf hd

end Program

/-- Extraction refuses a program for a repeated name only, and reports the first definition that repeats
an earlier one. Where no name is repeated the policies agree, and where some are, `lastWins` and
`firstWins` keep all definitions and agree on the calls of the other names. -/
theorem duplicates_decided (t : Tree) :
    ((∃ name first second, ofTree .reject t = .error (.duplicateFunction name first second)) ↔
      ∃ p q name, p ≠ q ∧ t.Defines p name ∧ t.Defines q name) ∧
    (∀ failure, ofTree .reject t = .error failure → ∃ p q name first second,
      failure = .duplicateFunction name (first.start.row + 1) (second.start.row + 1) ∧
      t.root.nodeAt? p = some first ∧ t.root.nodeAt? q = some second ∧
      t.Defines p name ∧ t.Defines q name ∧ p < q ∧ (∀ r < q, t.Defines r name → r = p) ∧
      IsLeast {r | ∃ s < r, ∃ other, t.Defines s other ∧ t.Defines r other} q) ∧
    ((∀ p q name, t.Defines p name → t.Defines q name → p = q) →
      ∃ e, ∀ policy, ofTree policy t = .ok e) ∧
    ∃ last first, ofTree .lastWins t = .ok last ∧ ofTree .firstWins t = .ok first ∧
      last.functions = first.functions ∧
      (∃ places : List Place, places.Pairwise (· < ·) ∧
        (∀ p, p ∈ places ↔ ∃ name, t.Defines p name) ∧
        List.Forall₂ (Records t) places last.functions) ∧
      ∀ name, (∀ p q, t.Defines p name → t.Defines q name → p = q) →
        last.calls.callees? name = first.calls.callees? name := by
  have hrepeat : ¬ (∀ p q name, t.Defines p name → t.Defines q name → p = q) ↔
      ∃ p q name, p ≠ q ∧ t.Defines p name ∧ t.Defines q name := by
    push Not
    refine exists_congr fun p => exists_congr fun q => exists_congr fun name => ?_
    rw [← and_assoc, and_comm]
  refine ⟨?_, ?_, exists_ofTree_of_unique, ?_⟩
  · rw [← hrepeat]
    constructor
    · rintro ⟨name, first, second, herror⟩ hunique
      obtain ⟨e, he⟩ := exists_ofTree_of_unique hunique
      rw [he] at herror
      cases herror
    · intro h
      obtain ⟨-, -, name, first, second, -, -, -, -, -, -, -, herror⟩ := ofTree_reject_of_repeat h
      exact ⟨name, _, _, herror⟩
  · intro failure hfailure
    have h : ¬ ∀ p q name, t.Defines p name → t.Defines q name → p = q := by
      intro hunique
      obtain ⟨e, he⟩ := exists_ofTree_of_unique hunique
      rw [he] at hfailure
      cases hfailure
    obtain ⟨p, q, name, first, second, hp, hq, hpq, hone, hleast, hfirst, hsecond, herror⟩ :=
      ofTree_reject_of_repeat h
    rw [herror] at hfailure
    exact ⟨p, q, name, first, second, (Except.error.inj hfailure).symm, hfirst, hsecond, hp, hq, hpq,
      hone, hleast⟩
  · obtain ⟨last, first, hlast, hfirst, hagree⟩ := exists_assignCalls_agree t
    obtain ⟨places, hascending, hdefined, hrecords⟩ := exists_places_records t
    refine ⟨withCalls t last, withCalls t first, ofTree_of_assignCalls hlast,
      ofTree_of_assignCalls hfirst, rfl, ⟨places, hascending, fun p => ?_, hrecords⟩, hagree⟩
    rw [hdefined, exists_defines_iff]

end CallAtlas.Extraction
