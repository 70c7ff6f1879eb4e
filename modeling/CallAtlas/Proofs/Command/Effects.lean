import CallAtlas.Proofs.Command.Answers

/-!
# Commands leave no partial results

A command writes once and last: the text of its result to a file or to the output, or a settings file.
So one that ends early has written nothing, and one that ends with success has written one thing only.
-/

namespace CallAtlas

open Text

namespace Desk

/-- A text has been printed, and no file has been written. -/
structure Printed (desk : Desk) (text : String) (after : Desk) : Prop where
  files : after.files = desk.files
  output : after.output = desk.output ++ text

/-- A text has been written to a file, and nothing else has been written. -/
structure WrittenOnly (desk : Desk) (path text : String) (after : Desk) : Prop where
  files : desk.files.OnlyWritten path text.toUTF8 after.files
  output : after.output = desk.output

end Desk

namespace Analyzer

/-- A text has been printed, or else has been written to the file that the command names, and nothing
but this. In the second case the same command without the file prints the text. -/
def Delivers (a : Analyzer) (c : Command) (desk : Desk) (text : String) (after : Desk) : Prop :=
  match c.output? with
  | none => desk.Printed text after
  | some path => desk.WrittenOnly path text after ∧
    ∃ printed, desk.perform (a.run (c.withOutput none)) = (.ok .success, printed) ∧
      desk.Printed text printed

/-- What a command does that ends with success: `init` writes a settings file and perhaps makes
directories for it, and all others deliver what they make of their program. -/
def Succeeds (a : Analyzer) (desk after : Desk) : Command → Prop
  | .init directory _ => ∃ made, desk.files.createDirectory (settingsPlace directory).1 = .ok made ∧
      desk.files.AddsDirectories made ∧ ({ desk with files := made } : Desk).WrittenOnly
        (settingsPlace directory).2 ({} : Settings).document after
  | c => ∃ input text result, c.input? = some input ∧ desk.programText input = .ok text ∧
      a.Reports (.ofText text) c result ∧ a.Delivers c desk (result ++ "\n") after

/-- What it takes for a command to end with success. `init` wants a place for its settings file that is
empty or may be overwritten; all others want a program of which they make something, and a place for it. -/
def Ready (a : Analyzer) (desk : Desk) : Command → Prop
  | .init directory force =>
    (force = true ∨ desk.files.contains (settingsPlace directory).2 = false) ∧
      ∃ made, desk.files.createDirectory (settingsPlace directory).1 = .ok made ∧
        made.Writable (settingsPlace directory).2
  | c => ∃ input text result, c.input? = some input ∧ desk.programText input = .ok text ∧
      a.Reports (.ofText text) c result ∧ ∀ path, c.output? = some path → desk.files.Writable path

theorem ready_iff {a : Analyzer} {desk : Desk} {c : Command} {input : String}
    (hinput : c.input? = some input) : a.Ready desk c ↔
      ∃ text result, desk.programText input = .ok text ∧ a.Reports (.ofText text) c result ∧
        ∀ path, c.output? = some path → desk.files.Writable path := by
  cases c with
  | init _ _ => cases hinput
  | functions _ _ _ | calls _ _ | graph _ _ _ | stats _ _ | deps _ _ =>
    cases hinput
    simp only [Ready, Command.input?, Option.some.injEq, exists_and_left, exists_eq_left']

theorem succeeds_of_delivers {a : Analyzer} {desk after : Desk} {c : Command}
    {input text result : String} (hinput : c.input? = some input)
    (htext : desk.programText input = .ok text) (hreports : a.Reports (.ofText text) c result)
    (h : a.Delivers c desk (result ++ "\n") after) : a.Succeeds desk after c := by
  cases c with
  | init _ _ => cases hinput
  | functions _ _ _ | calls _ _ | graph _ _ _ | stats _ _ | deps _ _ =>
    exact ⟨input, text, result, hinput, htext, hreports, h⟩

end Analyzer

namespace Desk

variable {desk mid after : Desk} {path text : String}

theorem Keeps.printed (h : desk.Keeps mid) (h' : mid.Printed text after) : desk.Printed text after :=
  ⟨h'.files.trans h.files, by rw [h'.output, h.output]⟩

theorem Keeps.writtenOnly (h : desk.Keeps mid) (h' : mid.WrittenOnly path text after) :
    desk.WrittenOnly path text after :=
  ⟨h.files ▸ h'.files, h'.output.trans h.output⟩

theorem printed_deliver (desk : Desk) (text : String) :
    ∃ after, desk.perform (Analyzer.deliver none text) = (.ok .success, after) ∧
      desk.Printed (text ++ "\n") after :=
  ⟨_, desk.perform_deliver_none text, rfl, rfl⟩

theorem writtenOnly_deliver (h : desk.files.Writable path) (text : String) :
    ∃ after, desk.perform (Analyzer.deliver (some path) text) = (.ok .success, after) ∧
      desk.WrittenOnly path (text ++ "\n") after := by
  obtain ⟨files, hwrite, -⟩ := h.exists_write (text ++ "\n").toUTF8
  refine ⟨{ desk with files }, ?_, Files.onlyWritten_of_write hwrite, rfl⟩
  rw [perform_deliver_some, hwrite]

theorem perform_deliver_of_not_writable (h : ¬ desk.files.Writable path) (text : String) :
    desk.perform (Analyzer.deliver (some path) text) = (.error (.cannotWrite path), desk) := by
  rw [perform_deliver_some]
  cases hwrite : desk.files.write path (text ++ "\n").toUTF8 with
  | ok files => exact absurd ⟨_, files, hwrite⟩ h
  | error e => rfl

end Desk

/-- Either the settings file is made, or no file is written. -/
theorem perform_init (a : Analyzer) (directory : Option String) (force : Bool) (desk : Desk) :
    ∃ ending after, desk.perform (a.run (.init directory force)) = (ending, after) ∧
      (ending ≠ .ok .success ∧ desk.files.AddsDirectories after.files ∧ after.output = desk.output ∧
          ¬ a.Ready desk (.init directory force) ∨
        ending = .ok .success ∧ a.Succeeds desk after (.init directory force) ∧
          a.Ready desk (.init directory force)) := by
  have hrun : desk.perform (a.run (.init directory force)) =
    desk.perform (Analyzer.createSettings directory force) := rfl
  rw [hrun, Desk.perform_createSettings]
  split
  case isTrue hpresent =>
    refine ⟨_, _, rfl, .inl ⟨nofun, .refl _, rfl, fun hready => ?_⟩⟩
    rcases hready.1 with hforce | habsent <;> simp_all
  case isFalse hpresent =>
    have hplace : force = true ∨ desk.files.contains (Analyzer.settingsPlace directory).2 = false := by
      cases force <;> simp_all
    have hmore := desk.files.addsDirectories_ensureDirectory (Analyzer.settingsPlace directory).1
    rcases hensure : desk.files.ensureDirectory (Analyzer.settingsPlace directory).1 with ⟨_ | _, made⟩
    case error e =>
      rw [hensure] at hmore
      refine ⟨_, _, rfl, .inl ⟨nofun, hmore, rfl, ?_⟩⟩
      rintro ⟨-, made, hready, -⟩
      cases hensure.symm.trans (Files.createDirectory_eq_ok_iff.1 hready)
    case ok =>
      rw [hensure] at hmore
      have hmade := Files.createDirectory_eq_ok_iff.2 hensure
      dsimp only
      cases hwrite : made.write (Analyzer.settingsPlace directory).2
          ({} : Settings).document.toUTF8 with
      | error e =>
        refine ⟨_, _, rfl, .inl ⟨nofun, hmore, rfl, ?_⟩⟩
        rintro ⟨-, made', hready, hwritable⟩
        obtain rfl := Except.ok.inj (hmade.symm.trans hready)
        obtain ⟨files, hfiles, -⟩ := hwritable.exists_write ({} : Settings).document.toUTF8
        cases hwrite.symm.trans hfiles
      | ok files =>
        exact ⟨_, _, rfl, .inr ⟨rfl, ⟨made, hmade, hmore, Files.onlyWritten_of_write hwrite, rfl⟩,
          hplace, made, hmade, _, files, hwrite⟩⟩

/-- A result that has a place is delivered there, and one that has none is not written. -/
theorem perform_deliver_output {a : Analyzer} {c : Command} {desk mid : Desk} {result : String}
    (hkept : desk.Keeps mid) (hprint : desk.perform (a.run (c.withOutput none)) =
      mid.perform (Analyzer.deliver none result)) :
    ∃ ending after, mid.perform (Analyzer.deliver c.output? result) = (ending, after) ∧
      (ending ≠ .ok .success ∧ desk.Keeps after ∧
          (∃ path, c.output? = some path ∧ ¬ desk.files.Writable path) ∨
        ending = .ok .success ∧ a.Delivers c desk (result ++ "\n") after ∧
          ∀ path, c.output? = some path → desk.files.Writable path) := by
  obtain ⟨printed, hprinted, htold⟩ := mid.printed_deliver result
  cases houtput : c.output? with
  | none =>
    refine ⟨_, printed, hprinted, .inr ⟨rfl, ?_, nofun⟩⟩
    simp only [Analyzer.Delivers, houtput]
    exact hkept.printed htold
  | some path =>
    by_cases hpath : desk.files.Writable path
    · obtain ⟨after, hafter, hwritten⟩ := Desk.writtenOnly_deliver (hkept.files ▸ hpath) result
      refine ⟨_, after, hafter, .inr ⟨rfl, ?_, fun _ h => Option.some.inj h ▸ hpath⟩⟩
      simp only [Analyzer.Delivers, houtput]
      exact ⟨hkept.writtenOnly hwritten, printed, hprint.trans hprinted, hkept.printed htold⟩
    · have herror := Desk.perform_deliver_of_not_writable (hkept.files ▸ hpath) result
      exact ⟨_, _, herror, .inl ⟨nofun, hkept, path, rfl, hpath⟩⟩

/-- Either a command about a program does what it should, or it writes nothing. -/
theorem perform_run (a : Analyzer) {c : Command} {input : String} (hinput : c.input? = some input)
    (desk : Desk) : ∃ ending after, desk.perform (a.run c) = (ending, after) ∧
      (ending ≠ .ok .success ∧ desk.Keeps after ∧ ¬ a.Ready desk c ∨
        ending = .ok .success ∧ a.Succeeds desk after c ∧ a.Ready desk c) := by
  obtain ⟨format, answer, hask, hreports⟩ := a.exists_run_eq_ask hinput
  have hrun := hask c.output?
  rw [c.withOutput_output?] at hrun
  have hprint := hask none
  rw [c.output?_withOutput_none] at hprint
  rw [hrun, Analyzer.ready_iff hinput]
  by_cases hresult : ∃ text result, desk.programText input = .ok text ∧
    a.Reports (.ofText text) c result
  · obtain ⟨text, result, htext, hresult⟩ := hresult
    obtain ⟨f, hformat, hanswer⟩ := (hreports _ result).2 hresult
    have hdeliver := perform_ask_of_result hformat htext hanswer
    obtain ⟨ending, after, hends, ⟨hending, hkept, path, houtput, hpath⟩ |
      ⟨hending, hdelivers, hpath⟩⟩ := perform_deliver_output (desk.keeps_afterReading input)
        ((congrArg desk.perform hprint).trans (hdeliver none))
    · refine ⟨ending, after, (hdeliver _).trans hends, .inl ⟨hending, hkept, ?_⟩⟩
      rintro ⟨-, -, -, -, hwritable⟩
      exact hpath (hwritable path houtput)
    · exact ⟨ending, after, (hdeliver _).trans hends, .inr ⟨hending,
        Analyzer.succeeds_of_delivers hinput htext hresult hdelivers, text, result, htext, hresult,
        hpath⟩⟩
  · obtain ⟨ending, after, hending, hafter, hends⟩ := perform_ask_of_no_result
      fun f text result hformat htext hanswer =>
        hresult ⟨text, result, htext, (hreports _ result).1 ⟨f, hformat, hanswer⟩⟩
    refine ⟨ending, after, hends _, .inl ⟨hending, hafter, ?_⟩⟩
    rintro ⟨text, result, htext, hready, -⟩
    exact hresult ⟨text, result, htext, hready⟩

/-- Commands leave no partial results. One that does not end with success writes neither to a file nor
to the output, and only `init` may have made directories. One that does has written its result to one
place and nothing else, and this is how it ends whenever there is a result and a place for it. A path that
begins with a slash or leads above the working directory is no such place, and nothing is read there. -/
theorem no_partial_results (a : Analyzer) (c : Command) (desk : Desk) :
    ∃ ending after, desk.perform (a.run c) = (ending, after) ∧
      (ending ≠ .ok .success → desk.files.AddsDirectories after.files ∧
        after.output = desk.output ∧ (c.input? ≠ none → after.files = desk.files)) ∧
      (ending = .ok .success → a.Succeeds desk after c) ∧
      (ending = .ok .success ↔ a.Ready desk c) := by
  cases hinput : c.input? with
  | some input =>
    obtain ⟨ending, after, hrun, ⟨hending, hkept, hready⟩ | ⟨hending, hsucceeds, hready⟩⟩ :=
      perform_run a hinput desk
    · refine ⟨ending, after, hrun, fun _ => ?_, fun h => absurd h hending, iff_of_false hending hready⟩
      exact ⟨hkept.files ▸ .refl _, hkept.output, fun _ => hkept.files⟩
    · exact ⟨ending, after, hrun, fun h => absurd hending h, fun _ => hsucceeds,
        iff_of_true hending hready⟩
  | none =>
    cases c with
    | init directory force =>
      obtain ⟨ending, after, hrun, ⟨hending, hmore, houtput, hready⟩ |
        ⟨hending, hsucceeds, hready⟩⟩ := perform_init a directory force desk
      · exact ⟨ending, after, hrun, fun _ => ⟨hmore, houtput, fun h => absurd rfl h⟩,
          fun h => absurd h hending, iff_of_false hending hready⟩
      · exact ⟨ending, after, hrun, fun h => absurd hending h, fun _ => hsucceeds,
          iff_of_true hending hready⟩
    | functions _ _ _ | calls _ _ | graph _ _ _ | stats _ _ | deps _ _ => cases hinput

end CallAtlas
