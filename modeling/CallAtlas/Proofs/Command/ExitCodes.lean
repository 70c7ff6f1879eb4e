import CallAtlas.CommandLine.Program
import CallAtlas.Proofs.Command.Verdicts
import CallAtlas.Proofs.Paths

/-!
# How commands and the program end

A command about a program ends as its verdict on the program says, unless something is in its way: a
format that there is not, a program that cannot be read, or a file that cannot be written. A number that
the program ends with tells of a program that is not valid only if the command has ended so.
-/

namespace CallAtlas

open CallAtlas.Graph CommandLine Syntax Text

/-! ## Agreement of the verdicts -/

/-- A program defines classes but no function. -/
def Syntax.Tree.DefinesOnlyClasses (t : Tree) : Prop :=
  (∃ p name, t.DefinesAs p name .classDefinition) ∧ ∀ p name, ¬ t.DefinesAs p name .function

/-- How far the verdicts of listings and of dependencies agree. -/
structure VerdictsAgree (a : Analyzer) (source : Source) (listing dependencies : Status) : Prop where
  parseFailed : listing = .parseFailed ↔ dependencies = .parseFailed
  syntaxError : dependencies = .parseFailed ↔
    ∃ d, Tree.parse a.grammar a.settings.parsing source = .error (.syntaxError d)
  nothingFound : dependencies = .nothingFound ↔
    ∃ t, Tree.parse a.grammar a.settings.parsing source = .ok t ∧
      ∀ p name kind, ¬ t.DefinesAs p name kind
  nothingListed : dependencies = .nothingFound → listing = .nothingFound
  differ : listing ≠ dependencies ↔
    ∃ t, Tree.parse a.grammar a.settings.parsing source = .ok t ∧
      (t.DefinesOnlyClasses ∨ a.settings.parsing.duplicatePolicy = .reject ∧ t.DefinesTwice)
  onlyClasses : ∀ t, Tree.parse a.grammar a.settings.parsing source = .ok t →
    t.DefinesOnlyClasses → listing = .nothingFound ∧ dependencies = .success
  repeated : ∀ t, Tree.parse a.grammar a.settings.parsing source = .ok t →
    a.settings.parsing.duplicatePolicy = .reject → t.DefinesTwice →
    listing = .failed ∧ dependencies = .success

/-- The verdicts on an accepted program agree so far if what it defines decides them. -/
theorem verdictsAgree_of_ok {a : Analyzer} {source : Source} {t : Tree}
    {listing dependencies : Status}
    (hparse : Tree.parse a.grammar a.settings.parsing source = .ok t)
    (hvalid : listing ≠ .parseFailed ∧ dependencies ≠ .parseFailed)
    (hnothing : dependencies = .nothingFound ↔ ∀ p name kind, ¬ t.DefinesAs p name kind)
    (hlisted : dependencies = .nothingFound → listing = .nothingFound)
    (hdiffer : listing ≠ dependencies ↔
      t.DefinesOnlyClasses ∨ a.settings.parsing.duplicatePolicy = .reject ∧ t.DefinesTwice)
    (hclasses : t.DefinesOnlyClasses → listing = .nothingFound ∧ dependencies = .success)
    (hrepeated : a.settings.parsing.duplicatePolicy = .reject → t.DefinesTwice →
      listing = .failed ∧ dependencies = .success) :
    VerdictsAgree a source listing dependencies where
  parseFailed := iff_of_false hvalid.1 hvalid.2
  syntaxError := iff_of_false hvalid.2 (by simp [hparse])
  nothingFound := by simp [hparse, hnothing]
  nothingListed := hlisted
  differ := by simp [hparse, hdiffer]
  onlyClasses := by simpa [hparse] using hclasses
  repeated := by simpa [hparse] using hrepeated

theorem Analyzer.Verdicts.agree {a : Analyzer} {source : Source} {listing dependencies : Status}
    (h : a.Verdicts source listing dependencies) :
    VerdictsAgree a source listing dependencies := by
  cases h with
  | wrong hparse => constructor <;> simp [hparse]
  | refused hparse hother => constructor <;> simp [hparse, hother]
  | @nothing t hparse hnone =>
    have hclasses : ¬ t.DefinesOnlyClasses := fun h => by
      obtain ⟨p, name, hp⟩ := h.1
      exact hnone p name _ hp
    have hrepeated : ¬ t.DefinesTwice := by
      rintro ⟨p, -, name, -, hp, -⟩
      exact hnone p name _ (Tree.defines_iff_definesAs.1 hp)
    exact verdictsAgree_of_ok hparse ⟨nofun, nofun⟩ (iff_of_true rfl hnone) (fun h => h)
      (by simp [hclasses, hrepeated]) (fun h => absurd h hclasses) fun _ h => absurd h hrepeated
  | @classes t hparse hclass hnone =>
    have hnone : ∀ p name, ¬ t.DefinesAs p name .function :=
      fun p name hp => hnone p name (Tree.defines_iff_definesAs.2 hp)
    have hsome : ¬ ∀ p name kind, ¬ t.DefinesAs p name kind := fun h => by
      obtain ⟨p, name, hp⟩ := hclass
      exact h p name _ hp
    have hrepeated : ¬ t.DefinesTwice := by
      rintro ⟨p, -, name, -, hp, -⟩
      exact hnone p name (Tree.defines_iff_definesAs.1 hp)
    exact verdictsAgree_of_ok hparse ⟨nofun, nofun⟩ (iff_of_false nofun hsome) nofun
      (iff_of_true nofun (.inl ⟨hclass, hnone⟩)) (fun _ => ⟨rfl, rfl⟩) fun _ h => absurd h hrepeated
  | @repeated t hparse hpolicy htwice =>
    obtain ⟨p, -, name, -, hp, -⟩ := id htwice
    have hp := Tree.defines_iff_definesAs.1 hp
    exact verdictsAgree_of_ok hparse ⟨nofun, nofun⟩ (iff_of_false nofun fun h => h p name _ hp) nofun
      (iff_of_true nofun (.inr ⟨hpolicy, htwice⟩)) (fun h => absurd hp (h.2 p name))
      fun _ _ => ⟨rfl, rfl⟩
  | @functions t hparse hfunction honce =>
    obtain ⟨p, name, hp⟩ := hfunction
    have hp := Tree.defines_iff_definesAs.1 hp
    have hclasses : ¬ t.DefinesOnlyClasses := fun h => h.2 p name hp
    exact verdictsAgree_of_ok hparse ⟨nofun, nofun⟩ (iff_of_false nofun fun h => h p name _ hp) nofun
      (iff_of_false (fun h => h rfl) (by simpa [hclasses] using honce))
      (fun h => absurd h hclasses) fun hpolicy h => absurd h (honce hpolicy)

/-! ## The ends of commands -/

namespace Command

/-- The format that a command works with, if it is one that there is. -/
def formatIn (s : Settings) : Command → Except Failure Format
  | functions _ name _ | calls _ name | stats _ name => Format.ofName (name.getD s.output.format)
  | graph _ name _ => name.elim (.ok .dot) Format.ofName
  | deps _ _ | init _ _ => .ok .dot

/-- Of the two verdicts the one that is the command's. -/
def verdict (listing dependencies : Status) : Command → Status
  | deps _ _ => dependencies
  | _ => listing

end Command

/-- A command about a program gives an answer with its verdict. -/
theorem Analyzer.exists_answer (a : Analyzer) {c : Command} {input : String}
    (h : c.input? = some input) : ∃ answer,
      (a.run c : Action) = ask (c.formatIn a.settings) input answer c.output? ∧
      ∀ f source, (answer f source).status =
        c.verdict (a.listingStatus source) (a.dependencyStatus source) := by
  cases c with
  | functions input name withoutSource =>
    cases h
    exact ⟨_, a.run_functions input name withoutSource, fun _ _ => status_reportAnswer _⟩
  | calls input name =>
    cases h
    exact ⟨_, a.run_calls input name, fun _ _ => status_reportAnswer _⟩
  | graph input name output =>
    cases h
    exact ⟨_, a.run_graph input name output, fun _ _ => status_reportAnswer _⟩
  | stats input name =>
    cases h
    exact ⟨_, a.run_stats input name, fun _ _ => status_reportAnswer _⟩
  | deps input output =>
    cases h
    exact ⟨_, a.run_deps input output, fun _ _ => rfl⟩
  | init directory force => cases h

/-- An answer that can be delivered ends the command with its status. -/
theorem perform_deliver_status {desk : Desk} {output : Option String}
    (h : ∀ path, output = some path → desk.files.Writable path) (answer : Answer) :
    (desk.perform (answer.deliver output)).1 = .ok answer.status := by
  cases answer with
  | result text =>
    cases output with
    | none => rw [Answer.deliver, Desk.perform_deliver_none, Answer.status]
    | some path =>
      obtain ⟨files, hfiles, -⟩ := (h path rfl).exists_write (text ++ "\n").toUTF8
      rw [Answer.deliver, Desk.perform_deliver_some, hfiles, Answer.status]
  | nothing notice => rw [Answer.deliver, Desk.perform_give, Answer.status]
  | refused failure => cases failure <;> exact congrArg Prod.fst (Desk.perform_give _ _ _)

/-- Whether or not its result can be delivered, a command tells of an invalid program only if that is
its answer. -/
theorem perform_deliver_parseFailed_iff (desk : Desk) (output : Option String) (answer : Answer) :
    (desk.perform (answer.deliver output)).1 = .ok .parseFailed ↔ answer.status = .parseFailed := by
  cases answer with
  | result text =>
    cases output with
    | none => simp [Answer.deliver, Desk.perform_deliver_none, Answer.status]
    | some path =>
      rw [Answer.deliver, Desk.perform_deliver_some]
      cases desk.files.write path (text ++ "\n").toUTF8 <;> simp [Answer.status]
  | nothing notice => simp [Answer.deliver, Desk.perform_give, Answer.status]
  | refused failure =>
    have hgive : (desk.perform ((Answer.refused failure).deliver none)).1 =
        .ok (Answer.refused failure).status := perform_deliver_status (by simp) _
    rw [show (Answer.refused failure).deliver output = (Answer.refused failure).deliver none from rfl,
      hgive, Except.ok.injEq]

namespace Analyzer

variable {a : Analyzer} {desk : Desk}

/-- A command with nothing in its way ends with its verdict. -/
theorem perform_run_verdict {c : Command} {input text : String} (hinput : c.input? = some input)
    (htext : desk.programText input = .ok text) {f : Format}
    (hformat : c.formatIn a.settings = .ok f)
    (hwritable : ∀ path, c.output? = some path → desk.files.Writable path) :
    (desk.perform (a.run c)).1 =
      .ok (c.verdict (a.listingStatus (.ofText text)) (a.dependencyStatus (.ofText text))) := by
  obtain ⟨answer, hrun, hstatus⟩ := a.exists_answer hinput
  rw [hrun, hformat, perform_ask_ok, htext, ← hstatus f]
  refine perform_deliver_status (fun path hpath => ?_) _
  rw [Desk.files_afterReading]
  exact hwritable path hpath

theorem verdict_eq_parseFailed_iff (c : Command) (source : Source) :
    c.verdict (a.listingStatus source) (a.dependencyStatus source) = .parseFailed ↔
      ∃ d, Tree.parse a.grammar a.settings.parsing source = .error (.syntaxError d) := by
  have hagree := (a.verdicts source).agree
  cases c with
  | deps => exact hagree.syntaxError
  | functions | calls | graph | stats | init => exact hagree.parseFailed.trans hagree.syntaxError

/-- Writing settings tells of no program. -/
theorem perform_init_ne_parseFailed (a : Analyzer) (directory : Option String) (force : Bool)
    (desk : Desk) : (desk.perform (a.run (.init directory force))).1 ≠ .ok .parseFailed := by
  have hrun : desk.perform (a.run (.init directory force)) =
    desk.perform (createSettings directory force) := rfl
  rw [hrun, Desk.perform_createSettings]
  split
  · exact nofun
  · rcases desk.files.ensureDirectory (settingsPlace directory).1 with ⟨_ | _, made⟩
    · exact nofun
    · dsimp only
      split <;> exact nofun

/-- A command tells of an invalid program exactly if it has read one. -/
theorem perform_run_parseFailed_iff (a : Analyzer) (c : Command) (desk : Desk) :
    (desk.perform (a.run c)).1 = .ok .parseFailed ↔
      ∃ input text f d, c.input? = some input ∧ c.formatIn a.settings = .ok f ∧
        desk.programText input = .ok text ∧
        Tree.parse a.grammar a.settings.parsing (.ofText text) = .error (.syntaxError d) := by
  cases hinput : c.input? with
  | none =>
    cases c with
    | init directory force =>
      exact iff_of_false (a.perform_init_ne_parseFailed directory force desk) (by simp)
    | functions _ _ _ | calls _ _ | graph _ _ _ | stats _ _ | deps _ _ => cases hinput
  | some input =>
    obtain ⟨answer, hrun, hstatus⟩ := a.exists_answer hinput
    rw [hrun]
    cases hformat : c.formatIn a.settings with
    | error failure =>
      have hstop : (desk.perform (ask (.error failure) input answer c.output?)).1 =
        .error (.other failure) := rfl
      rw [hstop]
      exact iff_of_false nofun (by simp)
    | ok f =>
      rw [perform_ask_ok]
      cases htext : desk.programText input with
      | error e =>
        refine iff_of_false nofun ?_
        rintro ⟨_, text, f, d, ⟨rfl⟩, -, htext', -⟩
        cases htext.symm.trans htext'
      | ok text =>
        rw [perform_deliver_parseFailed_iff, hstatus, verdict_eq_parseFailed_iff]
        constructor
        · rintro ⟨d, hd⟩
          exact ⟨input, text, f, d, rfl, rfl, htext, hd⟩
        · rintro ⟨_, text', f', d, ⟨rfl⟩, -, htext', hd⟩
          cases htext.symm.trans htext'
          exact ⟨d, hd⟩

end Analyzer

/-! ## The end of the program -/

/-- An analyzer has the settings that are found. -/
theorem perform_ofSettingsFile (grammar : Grammar) (path : Option String) (desk : Desk) :
    desk.perform (Analyzer.ofSettingsFile grammar path) =
      (match ((Settings.find path : StateM Desk _).run desk).1 with
        | .ok settings => .ok { grammar, settings }
        | .error _ => .error .cannotLoadSettings, desk) := by
  have hdesk : ((Settings.find path : StateM Desk _).run desk).2 = desk :=
    desk.run_loadFirst _
  rw [Analyzer.ofSettingsFile, Desk.perform_bind, Desk.perform_lift]
  dsimp only
  rw [hdesk]
  cases ((Settings.find path : StateM Desk _).run desk).1 <;> rfl

theorem Status.exitCode_eq_two_iff (s : Status) : s.exitCode = 2 ↔ s = .parseFailed := by
  cases s <;> decide

/-- The number of a command that has come to its end, or to an obstacle. -/
def codeOf : Except Obstacle Status → Nat
  | .ok status => status.exitCode
  | .error _ => obstacleCode

theorem codeOf_eq_two_iff (ending : Except Obstacle Status) :
    codeOf ending = 2 ↔ ending = .ok .parseFailed := by
  cases ending with
  | ok status => rw [codeOf, Status.exitCode_eq_two_iff, Except.ok.injEq]
  | error obstacle => exact iff_of_false (show obstacleCode ≠ 2 by decide) nofun

/-- What the program ends with, by the end of its command. -/
theorem runProgram_run {grammar : Grammar} {words : List String} {path : Option String}
    {c : Command} (h : Request.ofWords words = .run path c) (desk : Desk) :
    ((runProgram grammar words : StateM Desk Nat).run desk).1 =
      codeOf (desk.perform (Analyzer.ofSettingsFile grammar path >>= fun a => a.run c)).1 := by
  rw [runProgram, h]
  dsimp only
  rw [StateT.run_bind, Desk.perform]
  rcases ((Analyzer.ofSettingsFile grammar path >>= fun a => a.run c : Action).run.run desk) with
    ⟨_ | _, _⟩ <;> rfl

/-- A command comes to an end exactly if its settings are found and it comes to that end with them. -/
theorem perform_ofSettingsFile_bind_ok_iff (grammar : Grammar) (path : Option String) (c : Command)
    (desk : Desk) (status : Status) :
    (desk.perform (Analyzer.ofSettingsFile grammar path >>= fun a => a.run c)).1 = .ok status ↔
      ∃ settings, ((Settings.find path : StateM Desk _).run desk).1 = .ok settings ∧
        (desk.perform (Analyzer.run ⟨grammar, settings⟩ c)).1 = .ok status := by
  rw [Desk.perform_bind, perform_ofSettingsFile]
  cases ((Settings.find path : StateM Desk _).run desk).1 <;> simp

/-- The program says that its program is invalid exactly if the command that it runs does. -/
theorem runProgram_eq_two_iff (grammar : Grammar) {words : List String} (desk : Desk)
    (hwords : ∀ reason, Request.ofWords words ≠ .misuse reason) :
    ((runProgram grammar words : StateM Desk Nat).run desk).1 = 2 ↔
      ∃ path c settings, Request.ofWords words = .run path c ∧
        ((Settings.find path : StateM Desk _).run desk).1 = .ok settings ∧
        (desk.perform (Analyzer.run ⟨grammar, settings⟩ c)).1 = .ok .parseFailed := by
  cases hrequest : Request.ofWords words with
  | misuse reason => exact absurd hrequest (hwords reason)
  | explain text =>
    have hprint : ((runProgram grammar words : StateM Desk Nat).run desk).1 = 0 := by
      rw [runProgram, hrequest]
      rfl
    rw [hprint]
    refine iff_of_false (by decide) ?_
    rintro ⟨path, c, settings, hrun, -⟩
    cases hrun
  | run path c =>
    rw [runProgram_run hrequest, codeOf_eq_two_iff, perform_ofSettingsFile_bind_ok_iff]
    constructor
    · rintro ⟨settings, hsettings, hend⟩
      exact ⟨path, c, settings, rfl, hsettings, hend⟩
    · rintro ⟨_, _, settings, ⟨rfl, rfl⟩, hsettings, hend⟩
      exact ⟨settings, hsettings, hend⟩

/-- All commands classify a program in the same way. On a program that can be read each command with a
format that there is and a place for its result ends with one of two verdicts, which agree except on
programs of classes without functions and on repeated names that the policy refuses. A command tells of
an invalid program exactly if it has read one, and only then does the program end with 2, unless its
command line asks for nothing that could be done. No program can be read and no result has a place at a
path that begins with a slash or leads above the working directory. -/
theorem commands_agree :
    (∀ (a : Analyzer) (desk : Desk) (input text : String), desk.programText input = .ok text →
      ∃ listing dependencies, VerdictsAgree a (.ofText text) listing dependencies ∧
        ∀ c f, c.input? = some input → c.formatIn a.settings = .ok f →
          (∀ path, c.output? = some path → desk.files.Writable path) →
          (desk.perform (a.run c)).1 = .ok (c.verdict listing dependencies)) ∧
    (∀ (a : Analyzer) (c : Command) (desk : Desk),
      (desk.perform (a.run c)).1 = .ok .parseFailed ↔
        ∃ input text f d, c.input? = some input ∧ c.formatIn a.settings = .ok f ∧
          desk.programText input = .ok text ∧
          Tree.parse a.grammar a.settings.parsing (.ofText text) = .error (.syntaxError d)) ∧
    ∀ (grammar : Grammar) (words : List String) (desk : Desk),
      (∀ reason, Request.ofWords words ≠ .misuse reason) →
      (((runProgram grammar words : StateM Desk Nat).run desk).1 = 2 ↔
        ∃ path c settings, Request.ofWords words = .run path c ∧
          ((Settings.find path : StateM Desk _).run desk).1 = .ok settings ∧
          (desk.perform (Analyzer.run ⟨grammar, settings⟩ c)).1 = .ok .parseFailed) := by
  refine ⟨fun a desk input text htext => ?_, Analyzer.perform_run_parseFailed_iff,
    fun grammar words desk => runProgram_eq_two_iff grammar desk⟩
  refine ⟨_, _, (a.verdicts (.ofText text)).agree, fun c f hinput hformat hwritable => ?_⟩
  exact Analyzer.perform_run_verdict hinput htext hformat hwritable

/-- The tree of `class A: pass`. -/
def classProgram : Tree where
  source := .ofText "class A: pass"
  root :=
    let leaf (kind : Kind) (field : Option Field) (start stop : Nat) : Node :=
      .node { kind, named := true, field, start := ⟨start, 0, start⟩, stop := ⟨stop, 0, stop⟩ } []
    let inner (kind : Kind) (start : Nat) (children : List Node) : Node :=
      .node { kind, named := true, start := ⟨start, 0, start⟩, stop := ⟨13, 0, 13⟩ } children
    inner (.other "module") 0
      [inner .classDefinition 0
        [leaf .identifier (some .name) 6 7,
          inner .block 9 [leaf (.other "pass_statement") none 9 13]]]

theorem commands_agree_classProgram :
    let a : Analyzer := { grammar := fun _ => some classProgram.root, settings := {} }
    let desk : Desk := { input := "class A: pass".toUTF8 }
    desk.programText "-" = .ok "class A: pass" ∧
      (desk.perform (a.run (.graph "-" none none))).1 = .ok .nothingFound ∧
      (desk.perform (a.run (.deps "-" none))).1 = .ok .success := by
  intro a desk
  have htext : desk.programText "-" = .ok "class A: pass" := by
    have hinput : isStandardInput "-" = true := by
      rw [isStandardInput, Files.namesOf_name (by decide) (by decide) (by decide)]
      rfl
    rw [Desk.programText, if_pos hinput, Host.decode_toUTF8]
  have hnodes : ∀ {p m}, classProgram.root.nodeAt? p = some m →
      p = [] ∨ p = [0] ∨ p = [0, 0] ∨ p = [0, 1] ∨ p = [0, 1, 0] := by
    intro p m hm
    have hp : p ∈ [[], [0], [0, 0], [0, 1], [0, 1, 0]] := Node.mem_places.2 ⟨m, hm⟩
    simpa using hp
  have hparse : Tree.parse a.grammar a.settings.parsing (.ofText "class A: pass") =
      .ok classProgram := by
    refine ((Tree.judged_parse rfl _).accepted _).2 ⟨rfl, by decide, fun p m hm => ?_, rfl,
      fun p m hm => ?_⟩
    · rcases hnodes hm with rfl | rfl | rfl | rfl | rfl <;> decide
    · rcases hnodes hm with rfl | rfl | rfl | rfl | rfl <;> cases hm <;>
        simp [Node.Forbidden, Node.kind, Node.children, Node.shape, Node.listedNamed,
          Node.listedKind]
  have honly : classProgram.DefinesOnlyClasses := by
    refine ⟨⟨[0], _, _, rfl, rfl⟩, ?_⟩
    rintro p name ⟨m, hm, hd⟩
    rcases hnodes hm with rfl | rfl | rfl | rfl | rfl <;> cases hm <;> cases hd
  obtain ⟨listing, dependencies, hagree, hends⟩ := commands_agree.1 a desk "-" _ htext
  obtain ⟨rfl, rfl⟩ := hagree.onlyClasses _ hparse honly
  exact ⟨htext, hends (.graph "-" none none) .dot rfl rfl (by simp [Command.output?]),
    hends (.deps "-" none) .dot rfl rfl (by simp [Command.output?])⟩

end CallAtlas
