import CallAtlas.Proofs.Command.Steps
import CallAtlas.Proofs.Settings.Names
import Mathlib

/-!
# A settings file sets what it names

`load_overrides`: settings are loaded from every document that gives each name a value that it can have,
or none. They have the values that are given and are by default otherwise, so documents that give the same
are alike. A value of the wrong type is a problem of settings, except that a table may stand for a policy.
-/

namespace CallAtlas.Settings

open Toml

/-! ## Failures of settings -/

/-- Whether what can go wrong is a problem of settings. -/
def FailsBySettings {α : Type} (x : Except Failure α) : Prop :=
  ∀ failure, x = .error failure → ∃ problem, failure = .settings problem

namespace FailsBySettings

variable {α β : Type}

theorem ok (a : α) : FailsBySettings (.ok a) := nofun

theorem error (problem : SettingsProblem) :
    FailsBySettings (.error (.settings problem) : Except Failure α) :=
  fun _ h => ⟨problem, (Except.error.inj h).symm⟩

theorem bind {x : Except Failure α} {f : α → Except Failure β} (hx : FailsBySettings x)
    (hf : ∀ a, FailsBySettings (f a)) : FailsBySettings (x >>= f) := by
  cases x with
  | error e => exact fun _ h => hx _ (congrArg Except.error (Except.error.inj h))
  | ok a => exact hf a

theorem readOr (read : Toml → Option α) (fallback : α) (key : String) (v : Option Toml) :
    FailsBySettings (Toml.readOr read fallback key v) := by
  cases v with
  | none => exact .ok fallback
  | some v =>
    rw [Toml.readOr]
    cases read v with
    | none => exact .error _
    | some a => exact .ok a

theorem readGroupOr {read : Toml → Except Failure α} (hread : ∀ v, FailsBySettings (read v))
    (fallback : α) (key : String) (v : Option Toml) :
    FailsBySettings (Toml.readGroupOr read fallback key v) := by
  cases v with
  | none => exact .ok fallback
  | some v =>
    rw [Toml.readGroupOr]
    split
    · exact hread v
    · exact .error _

theorem parsing (group : Toml) : FailsBySettings (ParsingSettings.ofGroup group) :=
  bind (readOr _ _ _ _) fun _ => bind (readOr _ _ _ _) fun _ => bind (readOr _ _ _ _) fun _ => ok _

theorem graph (group : Toml) : FailsBySettings (GraphStyle.ofGroup group) :=
  bind (readOr _ _ _ _) fun _ => bind (readOr _ _ _ _) fun _ => bind (readOr _ _ _ _) fun _ =>
    bind (readOr _ _ _ _) fun _ => bind (readOr _ _ _ _) fun _ => bind (readOr _ _ _ _) fun _ => ok _

theorem output (group : Toml) : FailsBySettings (OutputSettings.ofGroup group) :=
  bind (readOr _ _ _ _) fun _ => bind (readOr _ _ _ _) fun _ => ok _

theorem ofMembers (ms : Members) : FailsBySettings (Settings.ofMembers ms) :=
  bind (readGroupOr parsing _ _ _) fun _ => bind (readGroupOr graph _ _ _) fun _ =>
    bind (readGroupOr output _ _ _) fun _ => ok _

theorem ofDocument (text : String) : FailsBySettings (Settings.ofDocument text) := by
  rw [Settings.ofDocument]
  cases parse text with
  | none => exact error _
  | some ms => exact ofMembers ms

end FailsBySettings

/-! ## Documents of settings -/

variable {ms ms' : Members} {s s' : Settings} {text : String} {n : Name}

/-- A document gives a name a value that it can have. -/
def Gives (ms : Members) (n : Name) (a : n.Value) : Prop :=
  ∃ v, given? ms n = some v ∧ n.Accepts v a

/-- A document gives each name a value that it can have, or none. -/
structure Valid (ms : Members) : Prop where
  groups : HasGroups ms
  values : ∀ n v, given? ms n = some v → ∃ a, n.Accepts v a

theorem Name.Accepts.unique {v : Toml} {a b : n.Value} (ha : n.Accepts v a) (hb : n.Accepts v b) :
    a = b :=
  Option.some.inj ((Name.read_eq_some_iff.2 ha).symm.trans (Name.read_eq_some_iff.2 hb))

theorem Valid.exists_follows (h : Valid ms) : ∃ s, ∀ n, Follows ms s n := by
  have hvalue (n : Name) : ∃ a : n.Value, n.readIn (groupOf ms n) = .ok a := by
    rw [Name.readIn, ← given?_eq]
    cases hgiven : given? ms n with
    | none => exact ⟨_, rfl⟩
    | some v =>
      obtain ⟨a, ha⟩ := h.values n v hgiven
      refine ⟨a, readOr_eq_ok_iff.2 ⟨?_, fun h => absurd h (Option.some_ne_none v)⟩⟩
      rintro _ ⟨rfl⟩
      exact Name.read_eq_some_iff.2 ha
  choose values hvalues using hvalue
  refine ⟨ofValues values, fun n => follows_iff.2 ?_⟩
  rw [value_ofValues, hvalues]

/-- Settings are known from what the document that they follow gives. -/
theorem eq_of_follows (h : ∀ n, Follows ms s n) (h' : ∀ n, Follows ms' s' n)
    (hgives : ∀ n a, Gives ms n a ↔ Gives ms' n a) : s = s' := by
  refine ext_value fun n => ?_
  cases hgiven : given? ms n with
  | some v =>
    obtain ⟨v', hgiven', haccepts⟩ := (hgives n _).1 ⟨v, hgiven, (h n).given v hgiven⟩
    exact haccepts.unique ((h' n).given v' hgiven')
  | none =>
    have hgiven' : given? ms' n = none := by
      refine Option.eq_none_iff_forall_ne_some.2 fun v' hgiven' => ?_
      obtain ⟨v, hv, -⟩ := (hgives n _).2 ⟨v', hgiven', (h' n).given v' hgiven'⟩
      cases hgiven.symm.trans hv
    rw [(h n).absent hgiven, (h' n).absent hgiven']

/-! ## Loading -/

theorem run_load_text {desk : Desk} {path : String} (h : desk.files.read path = .ok text.toUTF8) :
    (load path : StateM Desk _).run desk = (ofDocument text, desk) := by
  simp only [Desk.run_load, h, Except.bind, Host.decode_toUTF8]

theorem ofDocument_of_follows (hparse : parse text = some ms) (hgroups : HasGroups ms)
    (h : ∀ n, Follows ms s n) : ofDocument text = .ok s := by
  rw [ofDocument, hparse]
  exact ofMembers_eq_ok_iff.2 ⟨hgroups, h⟩

/-- A text that is no document, or one that gives a name a value that it cannot have, is a problem of
settings. -/
theorem exists_problem (h : ∀ ms, parse text = some ms →
      ∃ n v, given? ms n = some v ∧ ∀ a, ¬ n.Accepts v a) :
    ∃ problem, ofDocument text = .error (.settings problem) := by
  cases hdocument : ofDocument text with
  | error failure =>
    obtain ⟨problem, rfl⟩ := FailsBySettings.ofDocument text failure hdocument
    exact ⟨problem, rfl⟩
  | ok s =>
    rw [ofDocument] at hdocument
    cases hparse : parse text with
    | none => rw [hparse] at hdocument; cases hdocument
    | some ms =>
      obtain ⟨n, v, hv, hwrong⟩ := h ms hparse
      rw [hparse] at hdocument
      exact absurd (((ofMembers_eq_ok_iff.1 hdocument).2 n).given v hv) (hwrong _)

/-- A settings file overrides what it names and nothing else. From every document that gives each name a
value that it can have, or none, settings are loaded that have these values and are by default otherwise,
and the same ones from any document that gives the same. Where a name is given a value of the wrong type
and no table that stands for one of its values, that is a problem of settings, whatever else there is. A
text of groups, in any order and with any others among them, is a document that gives what is in its
groups. -/
theorem load_overrides :
    (∀ (desk : Desk) (path text : String), desk.files.read path = .ok text.toUTF8 →
      (∀ ms, parse text = some ms → Valid ms → ∃ s,
        (load path : StateM Desk _).run desk = (.ok s, desk) ∧ (∀ n, Follows ms s n) ∧
        ∀ (desk' : Desk) (path' text' : String) (ms' : Members),
          desk'.files.read path' = .ok text'.toUTF8 → parse text' = some ms' → Valid ms' →
          (∀ n a, Gives ms n a ↔ Gives ms' n a) →
          (load path' : StateM Desk _).run desk' = (.ok s, desk')) ∧
      ((∀ ms, parse text = some ms → ∃ n v, given? ms n = some v ∧
          (∀ a, ¬ n.Stands v a) ∧ ∀ a, ¬ n.StandsAsTable v a) →
        ∃ problem, (load path : StateM Desk _).run desk = (.error (.settings problem), desk))) ∧
    ∀ gs : List Group, (gs.map Group.name).Nodup →
      ∃ ms, parse ("\n".intercalate (gs.map Group.text)) = some ms ∧ HasGroups ms ∧
        ∀ n v, given? ms n = some v ↔
          ∃ g ∈ gs, g.name = n.group ∧ ∃ f ∈ g.fields, f.key = n.key ∧ f.value = v := by
  refine ⟨fun desk path text hread => ⟨fun ms hparse hvalid => ?_, fun hwrong => ?_⟩,
    fun gs hnodup => ?_⟩
  · obtain ⟨s, hs⟩ := hvalid.exists_follows
    refine ⟨s, ?_, hs, fun desk' path' text' ms' hread' hparse' hvalid' hgives => ?_⟩
    · rw [run_load_text hread, ofDocument_of_follows hparse hvalid.groups hs]
    · obtain ⟨s', hs'⟩ := hvalid'.exists_follows
      obtain rfl := eq_of_follows hs hs' hgives
      rw [run_load_text hread', ofDocument_of_follows hparse' hvalid'.groups hs']
  · obtain ⟨problem, hproblem⟩ := exists_problem fun ms hparse =>
      have ⟨n, v, hv, htype, htable⟩ := hwrong ms hparse
      ⟨n, v, hv, fun a => not_or.2 ⟨htype a, htable a⟩⟩
    exact ⟨problem, by rw [run_load_text hread, hproblem]⟩
  · exact ⟨membersOf gs, parse_groups gs hnodup, hasGroups_membersOf hnodup,
      fun n v => given?_membersOf_iff hnodup⟩

/-- A desk with a text in a file under the name `s`. -/
def deskWith (text : String) : Desk := { files := Files.empty.withFile ["s"] text.toUTF8 }

theorem read_deskWith (text : String) : (deskWith text).files.read "s" = .ok text.toUTF8 := by
  have hpath : Files.IsPath "s" := ⟨by cbv, by cbv, by decide⟩
  have hnames : Files.namesOf "s" = ["s"] := by cbv
  have hleads : Files.Leads (deskWith text).files [] (Files.namesOf "s") ["s"] := by
    rw [hnames]
    exact .last (by decide) (by decide)
  have hfile : (deskWith text).files.at? ["s"] = some (.file text.toUTF8) :=
    Files.at?_withFile_self (List.cons_ne_nil "s" [])
  rw [Files.read, Files.find_file hpath hleads (by cbv) hfile]

theorem Name.isBare_key (n : Name) : IsBare n.key := by
  cases n <;> decide

theorem Name.isBare_group (n : Name) : IsBare n.group := by
  cases n <;> decide

/-- Groups that are not in the usual order, with fields and a group that are not known. -/
def unordered : List Group :=
  [{ name := Name.includeSource.group
     fields := [textField "colour" "none" (by decide),
       truthField Name.includeSource.key false (Name.isBare_key .includeSource)]
     bare := Name.isBare_group .includeSource
     nodup := by decide },
   { name := "window", fields := [], bare := by decide, nodup := .nil },
   { name := Name.duplicatePolicy.group
     fields := [textField Name.duplicatePolicy.key "reject" (Name.isBare_key .duplicatePolicy),
       numberField Name.maxDepth.key 5 (Name.isBare_key .maxDepth) (by decide)]
     bare := Name.isBare_group .duplicatePolicy
     nodup := by decide }]

/-- A group with a policy that there is not. -/
def unknownPolicy : List Group :=
  [{ name := Name.duplicatePolicy.group
     fields := [textField Name.duplicatePolicy.key "merge" (Name.isBare_key .duplicatePolicy)]
     bare := Name.isBare_group .duplicatePolicy
     nodup := by decide }]

theorem load_overrides_unordered :
    (∃ s, (load "s" : StateM Desk _).run (deskWith ("\n".intercalate (unordered.map Group.text))) =
        (.ok s, deskWith ("\n".intercalate (unordered.map Group.text))) ∧
      s.parsing = { maxDepth := 5, duplicatePolicy := .reject } ∧ s.output.includeSource = false) ∧
    ∃ problem, (load "s" : StateM Desk _).run
        (deskWith ("\n".intercalate (unknownPolicy.map Group.text))) =
      (.error (.settings problem), deskWith ("\n".intercalate (unknownPolicy.map Group.text))) := by
  constructor
  · have hparse := parse_groups unordered (by decide)
    have hdepth : Name.maxDepth.Accepts (.integer 5) 5 := .inl rfl
    have hpolicy : Name.duplicatePolicy.Accepts (.string "reject") .reject := .inl rfl
    have hsource : Name.includeSource.Accepts (.boolean false) false := .inl rfl
    have hvalid : Valid (membersOf unordered) := by
      refine ⟨hasGroups_membersOf (by decide), fun n v hv => ?_⟩
      cases n with
      | maxDepth => cases hv; exact ⟨5, hdepth⟩
      | duplicatePolicy => cases hv; exact ⟨.reject, hpolicy⟩
      | includeSource => cases hv; exact ⟨false, hsource⟩
      | _ => cases hv
    obtain ⟨s, hs, hfollows, -⟩ :=
      (load_overrides.1 _ "s" _ (read_deskWith _)).1 _ hparse hvalid
    have hsize : s.parsing.maxFileSize = 1048576 := (hfollows .maxFileSize).absent rfl
    have hdepth' : s.parsing.maxDepth = 5 := ((hfollows .maxDepth).given _ rfl).unique hdepth
    have hpolicy' : s.parsing.duplicatePolicy = .reject :=
      ((hfollows .duplicatePolicy).given _ rfl).unique hpolicy
    refine ⟨s, hs, ?_, ((hfollows .includeSource).given _ rfl).unique hsource⟩
    rw [← hsize, ← hdepth', ← hpolicy']
  · refine (load_overrides.1 _ "s" _ (read_deskWith _)).2 fun ms hms => ?_
    obtain rfl := Option.some.inj ((parse_groups unknownPolicy (by decide)).symm.trans hms)
    refine ⟨.duplicatePolicy, .string "merge", rfl, fun a ha => ?_, fun _ ⟨_, _, h, _⟩ => nomatch h⟩
    have hnone : Name.duplicatePolicy.read (.string "merge") = none := rfl
    cases hnone.symm.trans (Name.read_eq_some_iff.2 (.inl ha))

/-- A document that gives the policy as a table. -/
def policyAsTable : String := "[parsing]\nduplicate_policy = \x7b reject = \x7b\x7d \x7d\n"

/-- The policy is given a value that is no name of a policy, and settings are loaded. -/
theorem policy_loaded_from_table :
    (∃ ms v, parse policyAsTable = some ms ∧ given? ms .duplicatePolicy = some v ∧
      ∀ policy, ¬ Name.duplicatePolicy.Stands v policy) ∧
    (load "s" : StateM Desk _).run (deskWith policyAsTable) =
      (.ok { parsing := { duplicatePolicy := .reject } }, deskWith policyAsTable) := by
  have hgiven : ((parse policyAsTable).bind (given? · .duplicatePolicy)).map string? = some none := by
    decide +kernel
  have hdocument : ofDocument policyAsTable =
      .ok { parsing := { duplicatePolicy := .reject } } := by
    decide +kernel
  obtain ⟨v, hv, hnotext⟩ := Option.map_eq_some_iff.1 hgiven
  obtain ⟨ms, hms, hv⟩ := Option.bind_eq_some_iff.1 hv
  refine ⟨⟨ms, v, hms, hv, fun policy hpolicy => ?_⟩, ?_⟩
  · obtain rfl : v = .string policy.name := hpolicy
    cases hnotext
  · rw [run_load_text (read_deskWith _), hdocument]

end CallAtlas.Settings
