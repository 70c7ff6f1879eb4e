import CallAtlas.Command.Run
import CallAtlas.Proofs.Directories
import CallAtlas.Proofs.Settings.Document

/-!
# The steps of commands at a desk

What each step of a command ends in and what it does to the desk. Reading a program takes it from a file
or from the input; only the delivery of a result writes to a file or to the output.
-/

namespace CallAtlas

open Text

namespace Desk

variable {α β : Type}

/-- What an action at a desk ends in, and the desk afterwards. -/
def perform (desk : Desk) (action : ExceptT Obstacle (StateM Desk) α) : Except Obstacle α × Desk :=
  action.run.run desk

@[simp] theorem perform_pure (desk : Desk) (a : α) : desk.perform (pure a) = (.ok a, desk) := rfl

@[simp] theorem perform_throw (desk : Desk) (o : Obstacle) :
    desk.perform (throw o : ExceptT Obstacle (StateM Desk) α) = (.error o, desk) := rfl

theorem perform_lift (desk : Desk) (action : StateM Desk α) :
    desk.perform (liftM action) = (.ok (action.run desk).1, (action.run desk).2) := rfl

theorem perform_bind (desk : Desk) (action : ExceptT Obstacle (StateM Desk) α)
    (next : α → ExceptT Obstacle (StateM Desk) β) :
    desk.perform (action >>= next) =
      match desk.perform action with
      | (.ok a, after) => after.perform (next a)
      | (.error o, after) => (.error o, after) := by
  simp only [perform, ExceptT.run_bind, StateT.run_bind]
  rcases action.run.run desk with ⟨_ | _, after⟩ <;> rfl

/-! ## What a desk offers -/

theorem run_readText (desk : Desk) (path : String) :
    (Host.readText path : StateM Desk _).run desk =
      ((desk.files.read path).bind Host.decode, desk) := rfl

theorem run_readInputText (desk : Desk) :
    (Host.readInputText : StateM Desk _).run desk =
      (Host.decode desk.input, { desk with input := .empty }) := rfl

theorem run_print (desk : Desk) (text : String) :
    (Host.print text : StateM Desk _).run desk =
      ((), { desk with output := desk.output ++ text }) := rfl

theorem run_complain (desk : Desk) (text : String) :
    (Host.complain text : StateM Desk _).run desk =
      ((), { desk with errors := desk.errors ++ text }) := rfl

theorem run_present (desk : Desk) (path : String) :
    (Host.present path : StateM Desk _).run desk = (desk.files.contains path, desk) := rfl

theorem run_writeText (desk : Desk) (path text : String) :
    (Host.writeText path text : StateM Desk _).run desk =
      match desk.files.write path text.toUTF8 with
      | .ok files => (.ok (), { desk with files })
      | .error e => (.error e, desk) := rfl

theorem run_createDirectory (desk : Desk) (path : String) :
    (Host.createDirectory path : StateM Desk _).run desk =
      ((desk.files.ensureDirectory path).1,
        { desk with files := (desk.files.ensureDirectory path).2 }) := rfl

theorem run_save (desk : Desk) (settings : Settings) (path : String) :
    (settings.save path : StateM Desk _).run desk =
      match settings.toDocument with
      | .error failure => (.error failure, desk)
      | .ok text =>
        match desk.files.write path text.toUTF8 with
        | .ok files => (.ok (), { desk with files })
        | .error e => (.error (.file e), desk) := by
  rw [Settings.save]
  cases settings.toDocument with
  | error failure => rfl
  | ok text =>
    simp only [StateT.run_bind, run_writeText]
    cases desk.files.write path text.toUTF8 <;> rfl

theorem run_load (desk : Desk) (path : String) :
    (Settings.load path : StateM Desk _).run desk =
      (match (desk.files.read path).bind Host.decode with
        | .ok text => Settings.ofDocument text
        | .error e => .error (.file e), desk) := by
  rw [Settings.load, StateT.run_bind, run_readText]
  cases (desk.files.read path).bind Host.decode <;> rfl

theorem run_loadFirst_cons (desk : Desk) (path : String) (paths : List String) :
    (Settings.loadFirst (path :: paths) : StateM Desk _).run desk =
      if desk.files.contains path then (Settings.load path : StateM Desk _).run desk
      else (Settings.loadFirst paths : StateM Desk _).run desk := by
  rw [Settings.loadFirst, StateT.run_bind, run_present]
  cases desk.files.contains path <;> rfl

/-- Looking for settings leaves the desk as it is. -/
theorem run_loadFirst (desk : Desk) (paths : List String) :
    ((Settings.loadFirst paths : StateM Desk _).run desk).2 = desk := by
  induction paths with
  | nil => rfl
  | cons path paths ih =>
    rw [run_loadFirst_cons]
    split
    · exact congrArg Prod.snd (desk.run_load path)
    · exact ih

/-! ## Reading -/

/-- Nothing has been written to a file or to the output. -/
structure Keeps (desk after : Desk) : Prop where
  files : after.files = desk.files
  output : after.output = desk.output

/-- The text of a program: the content of a file, or all of the input. -/
def programText (desk : Desk) (input : String) : Except FileError String :=
  if isStandardInput input then Host.decode desk.input else (desk.files.read input).bind Host.decode

/-- The desk after a program has been read: the input can be read only once. -/
def afterReading (desk : Desk) (input : String) : Desk :=
  if isStandardInput input then { desk with input := .empty } else desk

@[simp] theorem files_afterReading (desk : Desk) (input : String) :
    (desk.afterReading input).files = desk.files := by
  rw [afterReading]
  split <;> rfl

@[simp] theorem output_afterReading (desk : Desk) (input : String) :
    (desk.afterReading input).output = desk.output := by
  rw [afterReading]
  split <;> rfl

theorem keeps_afterReading (desk : Desk) (input : String) : desk.Keeps (desk.afterReading input) :=
  ⟨files_afterReading desk input, output_afterReading desk input⟩

theorem Keeps.complain {desk after : Desk} (h : desk.Keeps after) (notice : String) :
    desk.Keeps { after with errors := after.errors ++ notice } := ⟨h.files, h.output⟩

theorem perform_readProgram (desk : Desk) (input : String) :
    desk.perform (Analyzer.readProgram input) =
      (match desk.programText input with
        | .ok text => .ok (.ofText text)
        | .error _ =>
          .error (if isStandardInput input then .cannotReadInput else .cannotRead input),
        desk.afterReading input) := by
  rw [Analyzer.readProgram, programText, afterReading]
  by_cases hinput : isStandardInput input = true
  · simp only [if_pos hinput, perform_bind, perform_lift, run_readInputText]
    cases Host.decode desk.input <;> simp
  · simp only [if_neg hinput, perform_bind, perform_lift, run_readText]
    cases (desk.files.read input).bind Host.decode <;> simp

/-! ## Writing -/

theorem perform_deliver_none (desk : Desk) (text : String) :
    desk.perform (Analyzer.deliver none text) =
      (.ok .success, { desk with output := desk.output ++ (text ++ "\n") }) := by
  rw [Analyzer.deliver, perform_bind, perform_lift, run_print]
  rfl

theorem perform_deliver_some (desk : Desk) (path text : String) :
    desk.perform (Analyzer.deliver (some path) text) =
      match desk.files.write path (text ++ "\n").toUTF8 with
      | .ok files => (.ok .success, { desk with files })
      | .error _ => (.error (.cannotWrite path), desk) := by
  simp only [Analyzer.deliver, perform_bind, perform_lift, run_writeText]
  cases desk.files.write path (text ++ "\n").toUTF8 <;> rfl

theorem perform_give (desk : Desk) (status : Status) (notice : String) :
    desk.perform (Analyzer.give status notice) =
      (.ok status, { desk with errors := desk.errors ++ (notice ++ "\n") }) := by
  rw [Analyzer.give, perform_bind, perform_lift, run_complain]
  rfl

theorem perform_createSettings (desk : Desk) (directory : Option String) (force : Bool) :
    desk.perform (Analyzer.createSettings directory force) =
      if desk.files.contains (Analyzer.settingsPlace directory).2 && !force then
        (.ok .failed, desk)
      else
        match desk.files.ensureDirectory (Analyzer.settingsPlace directory).1 with
        | (.error _, made) =>
          (.error (.cannotCreate (Analyzer.settingsPlace directory).1), { desk with files := made })
        | (.ok (), made) =>
          match made.write (Analyzer.settingsPlace directory).2 ({} : Settings).document.toUTF8 with
          | .ok files => (.ok .success, { desk with files })
          | .error e => (.error (.other (.file e)), { desk with files := made }) := by
  have hdocument : ({} : Settings).toDocument = .ok ({} : Settings).document :=
    Settings.toDocument_of_fits (by decide)
  simp only [Analyzer.createSettings, perform_bind, perform_lift, run_present]
  split
  · rfl
  · simp only [perform_bind, perform_lift, run_createDirectory]
    rcases desk.files.ensureDirectory (Analyzer.settingsPlace directory).1 with ⟨_ | _, made⟩
    · rfl
    · simp only [perform_bind, perform_lift, run_save, hdocument]
      cases made.write (Analyzer.settingsPlace directory).2 ({} : Settings).document.toUTF8 <;> rfl

end Desk

end CallAtlas
