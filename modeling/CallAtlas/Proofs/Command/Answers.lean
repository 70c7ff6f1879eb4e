import CallAtlas.Proofs.Command.Steps

/-!
# What commands make of programs

A command about a program makes sure of its format, reads the program, and comes to an answer: a result
to be delivered, or the reason why there is none. Where the result goes plays no part before it is
delivered.
-/

namespace CallAtlas

open CallAtlas.Graph Text

namespace Command

/-- The program that a command is about. -/
def input? : Command → Option String
  | functions input _ _ | calls input _ | graph input _ _ | stats input _ | deps input _ => some input
  | init _ _ => none

/-- The file to which the result of a command goes, if not to the output. -/
def output? : Command → Option String
  | graph _ _ output | deps _ output => output
  | _ => none

/-- The command with its result going elsewhere, if it can. -/
def withOutput (output : Option String) : Command → Command
  | graph input format _ => graph input format output
  | deps input _ => deps input output
  | c => c

theorem withOutput_output? (c : Command) : c.withOutput c.output? = c := by
  cases c <;> rfl

theorem output?_withOutput_none (c : Command) : (c.withOutput none).output? = none := by
  cases c <;> rfl

end Command

namespace Analyzer

/-- What a command makes of a program. -/
inductive Reports (a : Analyzer) (source : Source) : Command → String → Prop
  | functions {input : String} {name : Option String} {withoutSource : Bool} {format : Format}
      {analysis : Analysis} : Format.ofName (name.getD a.settings.output.format) = .ok format →
      a.analyze source = .found analysis →
      Reports a source (.functions input name withoutSource)
        (Listing.functions (a.settings.output.includeSource && !withoutSource) format
          analysis.extraction)
  | calls {input : String} {name : Option String} {format : Format} {analysis : Analysis} :
      Format.ofName (name.getD a.settings.output.format) = .ok format →
      a.analyze source = .found analysis →
      Reports a source (.calls input name) (Listing.calls format analysis.extraction)
  | stats {input : String} {name : Option String} {format : Format} {analysis : Analysis} :
      Format.ofName (name.getD a.settings.output.format) = .ok format →
      a.analyze source = .found analysis →
      Reports a source (.stats input name) (Listing.statistics format analysis.graph)
  | graph {input : String} {name output : Option String} {format : Format} {analysis : Analysis} :
      name.elim (.ok .dot) Format.ofName = .ok format → a.analyze source = .found analysis →
      Reports a source (.graph input name output)
        (if format = .json then analysis.graph.toJson.pretty else a.dot analysis)
  | deps {input : String} {output : Option String} {graph : DependencyGraph} :
      a.dependencies source = .ok graph → graph.nodeCount ≠ 0 →
      Reports a source (.deps input output) (graph.toDot a.settings.graph)

end Analyzer

/-! ## Asking about a program -/

/-- An action at a desk that ends a command. -/
abbrev Action := ExceptT Obstacle (StateM Desk) Status

/-- What a command comes to when it has read its program. -/
inductive Answer where
  | result (text : String)
  | nothing (notice : String)
  | refused (failure : Failure)

/-- Delivers the result, or says why there is none. -/
def Answer.deliver (output : Option String) : Answer → Action
  | result text => Analyzer.deliver output text
  | nothing notice => Analyzer.give .nothingFound notice
  | refused failure => Analyzer.giveUp failure

/-- Goes on with a format if there is one. -/
def checked (format : Except Failure Format) : ExceptT Obstacle (StateM Desk) Format :=
  match format with
  | .ok format => return format
  | .error failure => throw (.other failure)

/-- Makes sure of a format, reads a program, and delivers an answer. -/
def ask (format : Except Failure Format) (input : String) (answer : Format → Source → Answer)
    (output : Option String) : Action := do
  let format ← checked format
  let source ← Analyzer.readProgram input
  (answer format source).deliver output

namespace Analyzer

/-- The answer of a report. -/
def reportAnswer (a : Analyzer) (render : Analysis → String) (source : Source) : Answer :=
  match a.analyze source with
  | .found analysis => .result (render analysis)
  | .nothingFound => .nothing "No function definitions found."
  | .parseFailed diagnostic => .refused (.syntaxError diagnostic)
  | .failed reason => .refused reason

/-- The answer to a question for dependencies. -/
def dependencyAnswer (a : Analyzer) (source : Source) : Answer :=
  match a.dependencies source with
  | .ok graph =>
    if graph.nodeCount = 0 then .nothing "No function or class definitions found."
    else .result (graph.toDot a.settings.graph)
  | .error failure => .refused failure

variable (a : Analyzer) (input : String) (name output : Option String)

theorem report_eq (render : Analysis → String) : (a.report input output render : Action) =
    readProgram input >>= fun source => (a.reportAnswer render source).deliver output := by
  rw [report]
  refine bind_congr fun source => ?_
  rw [reportAnswer]
  cases a.analyze source <;> rfl

theorem formatNamed_eq (name : String) :
    formatNamed name = checked (Format.ofName name) := rfl

theorem run_functions (withoutSource : Bool) : (a.run (.functions input name withoutSource) : Action) =
    ask (Format.ofName (name.getD a.settings.output.format)) input
      (fun format => a.reportAnswer fun analysis =>
        Listing.functions (a.settings.output.includeSource && !withoutSource) format
          analysis.extraction) none := by
  simp only [run, ask, listingFormat, formatNamed_eq, report_eq]

theorem run_calls : (a.run (.calls input name) : Action) =
    ask (Format.ofName (name.getD a.settings.output.format)) input
      (fun format => a.reportAnswer fun analysis => Listing.calls format analysis.extraction)
      none := by
  simp only [run, ask, listingFormat, formatNamed_eq, report_eq]

theorem run_stats : (a.run (.stats input name) : Action) =
    ask (Format.ofName (name.getD a.settings.output.format)) input
      (fun format => a.reportAnswer fun analysis => Listing.statistics format analysis.graph)
      none := by
  simp only [run, ask, listingFormat, formatNamed_eq, report_eq]

theorem run_graph : (a.run (.graph input name output) : Action) =
    ask (name.elim (.ok .dot) Format.ofName) input
      (fun format => a.reportAnswer fun analysis =>
        if format = .json then analysis.graph.toJson.pretty else a.dot analysis) output := by
  cases name with
  | none =>
    have hdot : (a.run (.graph input none output) : Action) = a.report input output a.dot := rfl
    rw [hdot, report_eq, ask]
    simp only [Option.elim, checked, pure_bind, reduceCtorEq, if_false]
  | some name =>
    rw [run, ask]
    refine bind_congr fun format => ?_
    dsimp only
    rw [report_eq]
    cases format <;> simp

theorem run_deps : (a.run (.deps input output) : Action) =
    ask (.ok .dot) input (fun _ => a.dependencyAnswer) output := by
  rw [run, ask]
  refine bind_congr fun source => ?_
  rw [dependencyAnswer]
  cases a.dependencies source with
  | error failure => rfl
  | ok graph => by_cases h : graph.nodeCount = 0 <;> simp [h, Answer.deliver]

end Analyzer

/-- A command that comes to no result only gives a notice. -/
theorem perform_deliver_of_no_result (desk : Desk) {answer : Answer}
    (h : ∀ text, answer ≠ .result text) : ∃ status notice, status ≠ .success ∧
      ∀ output, desk.perform (answer.deliver output) =
        (.ok status, { desk with errors := desk.errors ++ notice }) := by
  cases answer with
  | result text => exact absurd rfl (h text)
  | nothing notice => exact ⟨.nothingFound, _, nofun, fun _ => desk.perform_give _ notice⟩
  | refused failure =>
    cases failure with
    | syntaxError d => exact ⟨.parseFailed, _, nofun, fun _ => desk.perform_give _ _⟩
    | _ => exact ⟨.failed, _, nofun, fun _ => desk.perform_give _ _⟩

section Ask

variable {desk : Desk} {format : Except Failure Format} {input : String}
  {answer : Format → Source → Answer}

theorem perform_ask_ok (desk : Desk) (f : Format) (input : String)
    (answer : Format → Source → Answer) (output : Option String) :
    desk.perform (ask (.ok f) input answer output) =
      match desk.programText input with
      | .ok text => (desk.afterReading input).perform ((answer f (.ofText text)).deliver output)
      | .error _ => (.error (if isStandardInput input then .cannotReadInput else .cannotRead input),
        desk.afterReading input) := by
  have hread : desk.perform (ask (.ok f) input answer output) =
      desk.perform (Analyzer.readProgram input >>= fun source =>
        (answer f source).deliver output) := rfl
  rw [hread, Desk.perform_bind, Desk.perform_readProgram]
  cases desk.programText input <;> rfl

/-- A result is delivered after the program has been read. -/
theorem perform_ask_of_result {f : Format} {text result : String} (hformat : format = .ok f)
    (htext : desk.programText input = .ok text)
    (hanswer : answer f (.ofText text) = .result result) (output : Option String) :
    desk.perform (ask format input answer output) =
      (desk.afterReading input).perform (Analyzer.deliver output result) := by
  rw [hformat, perform_ask_ok, htext]
  simp only [hanswer, Answer.deliver]

/-- Without a result nothing is written, and where it would go makes no difference. -/
theorem perform_ask_of_no_result (h : ∀ f text result, format = .ok f →
    desk.programText input = .ok text → answer f (.ofText text) ≠ .result result) :
    ∃ ending after, ending ≠ .ok .success ∧ desk.Keeps after ∧
      ∀ output, desk.perform (ask format input answer output) = (ending, after) := by
  have hkept := desk.keeps_afterReading input
  cases format with
  | error failure => exact ⟨.error (.other failure), desk, nofun, ⟨rfl, rfl⟩, fun _ => rfl⟩
  | ok f =>
    simp only [perform_ask_ok]
    cases htext : desk.programText input with
    | error e => exact ⟨.error _, _, nofun, hkept, fun _ => rfl⟩
    | ok text =>
      obtain ⟨status, notice, hstatus, hperform⟩ := perform_deliver_of_no_result
        (desk.afterReading input) fun result => h f text result rfl htext
      exact ⟨_, _, fun h => hstatus (Except.ok.inj h), hkept.complain notice, hperform⟩

end Ask

namespace Analyzer

variable {a : Analyzer} {source : Source} {result : String}

theorem reportAnswer_eq_result_iff {render : Analysis → String} :
    a.reportAnswer render source = .result result ↔
      ∃ analysis, a.analyze source = .found analysis ∧ render analysis = result := by
  rw [reportAnswer]
  cases a.analyze source <;> simp

theorem dependencyAnswer_eq_result_iff : a.dependencyAnswer source = .result result ↔
    ∃ graph, a.dependencies source = .ok graph ∧ graph.nodeCount ≠ 0 ∧
      graph.toDot a.settings.graph = result := by
  rw [dependencyAnswer]
  cases a.dependencies source with
  | error failure => simp
  | ok graph => by_cases hcount : graph.nodeCount = 0 <;> simp [hcount]

/-- A command about a program asks for the text that it makes of the program. -/
theorem exists_run_eq_ask (a : Analyzer) {c : Command} {input : String} (h : c.input? = some input) :
    ∃ format answer, (∀ output, (a.run (c.withOutput output) : Action) =
      ask format input answer (c.withOutput output).output?) ∧
    ∀ source result, (∃ f, format = .ok f ∧ answer f source = .result result) ↔
      a.Reports source c result := by
  cases c with
  | functions input name withoutSource =>
    cases h
    refine ⟨_, _, fun _ => a.run_functions input name withoutSource, fun source result => ?_⟩
    simp only [reportAnswer_eq_result_iff]
    constructor
    · rintro ⟨f, hf, analysis, hanalysis, rfl⟩
      exact .functions hf hanalysis
    · intro hreports
      cases hreports with
      | functions hf hanalysis => exact ⟨_, hf, _, hanalysis, rfl⟩
  | calls input name =>
    cases h
    refine ⟨_, _, fun _ => a.run_calls input name, fun source result => ?_⟩
    simp only [reportAnswer_eq_result_iff]
    constructor
    · rintro ⟨f, hf, analysis, hanalysis, rfl⟩
      exact .calls hf hanalysis
    · intro hreports
      cases hreports with
      | calls hf hanalysis => exact ⟨_, hf, _, hanalysis, rfl⟩
  | graph input name output =>
    cases h
    refine ⟨_, _, fun output => a.run_graph input name output, fun source result => ?_⟩
    simp only [reportAnswer_eq_result_iff]
    constructor
    · rintro ⟨f, hf, analysis, hanalysis, rfl⟩
      exact .graph hf hanalysis
    · intro hreports
      cases hreports with
      | graph hf hanalysis => exact ⟨_, hf, _, hanalysis, rfl⟩
  | stats input name =>
    cases h
    refine ⟨_, _, fun _ => a.run_stats input name, fun source result => ?_⟩
    simp only [reportAnswer_eq_result_iff]
    constructor
    · rintro ⟨f, hf, analysis, hanalysis, rfl⟩
      exact .stats hf hanalysis
    · intro hreports
      cases hreports with
      | stats hf hanalysis => exact ⟨_, hf, _, hanalysis, rfl⟩
  | deps input output =>
    cases h
    refine ⟨_, _, fun output => a.run_deps input output, fun source result => ?_⟩
    simp only [dependencyAnswer_eq_result_iff]
    constructor
    · rintro ⟨-, -, graph, hgraph, hcount, rfl⟩
      exact .deps hgraph hcount
    · intro hreports
      cases hreports with
      | deps hgraph hcount => exact ⟨_, rfl, _, hgraph, hcount, rfl⟩
  | init directory force => cases h

end Analyzer

end CallAtlas
