import CiPlan.Cli.Error
import CiPlan.Cli.Invocation
import CiPlan.Cli.Page.Planning
import CiPlan.Cli.Page.Running
import CiPlan.Cli.Page.Settings
import CiPlan.Leak.Query
import CiPlan.Leak.Targets
import CiPlan.Plan.Load
import CiPlan.Run.Command

/-!
# Commands

What each command does: the page that it shows and the error that it ends with, either of which may be
missing.  A command sees the files, the environment and the programs of the machine through a
`World`.
-/

namespace CiPlan.Cli

/-- What commands see of the machine. -/
structure World where
  files : FileSystem
  env : Environment
  launch : Launcher
  style : Style

/-- What came of a command. -/
structure Result where
  page : Option Page
  error : Option CommandError

namespace Result

/-- A command that shows a page and ends with a check. -/
def ofPage (page : Page) (check : Except CommandError Unit) : Result :=
  ⟨some page, match check with
    | .ok () => none
    | .error e => some e⟩

/-- A command that may fail before it shows anything. -/
def ofExcept : Except CommandError Result → Result
  | .ok r => r
  | .error e => ⟨none, some e⟩

def exitCode (r : Result) : Nat :=
  match r.error with
  | some e => e.exitCode
  | none => 0

def stdout (r : Result) (format : Format) : String :=
  match r.page, format with
  | none, _ => ""
  | some page, .text => page.text
  | some page, .json => page.json.pretty 0 ++ "\n"

end Result

namespace World

/-- The configuration of a file, under the environment. -/
def loadConfig [Formats] (w : World) (path : String) : Except Failure Config := do
  let file ← (w.files path).mapError fun
    | .notFound => .config (.fileNotFound path)
    | reason => .io reason
  let text ← file.text.mapError .io
  (Config.load w.env text).mapError .config

/-- The planner of a configuration. -/
def plannerOf [Formats] (w : World) (c : Config) : Except CommandError Planner :=
  (Planner.ofConfig w.files c).mapError .ofPlanner

/-- The orchestrator of a configuration, which runs the configured commands. -/
def orchestratorOf [Formats] (w : World) (c : Config) : Except RunError Orchestrator := do
  let command ← TestCommand.ofConfig c.runner
  Orchestrator.ofConfig (command.run w.launch w.env) (.ofLauncher w.launch w.env) c

end World

/-- The event that a text names. -/
def triggerOf (text : String) : Except CommandError TriggerEvent :=
  (TriggerEvent.parse text).mapError fun e => .badRequest (.value e)

/-- The terms of a selector that are not in a taxonomy. -/
def unknownTerms (taxonomy : List String) (s : Selector) : List String :=
  s.terms.names.filter (!taxonomy.contains ·)

section Commands

variable [Formats] (w : World) (path : String)

/-- The configuration for a command. -/
def configOf : Except CommandError Config :=
  (w.loadConfig path).mapError .failure

/-- Shows the plan of a trigger, or the partition that keeps it from being one. -/
def plan (trigger : String) (tests : Bool) : Except CommandError Result := do
  let trigger ← triggerOf trigger
  let planner ← w.plannerOf (← configOf w path)
  match planner.plan trigger with
  | .ok p => return .ofPage (.ofPlan p tests) (.ok ())
  | .error e =>
    return .ofPage (.ofPartition (planner.verify (Gate.ofTrigger trigger).level))
      (.error (.ofPlanner e))

/-- Shows the partition at the level of a trigger, or at every level. -/
def verify (trigger : Option String) : Except CommandError Result := do
  let planner ← w.plannerOf (← configOf w path)
  let levels ← match trigger with
    | some text => do pure [(Gate.ofTrigger (← triggerOf text)).level]
    | none => pure TriggerLevel.every
  let reports := levels.map planner.verify
  let defective := reports.filter (!·.isClean)
  return .ofPage (.ofPartitions reports)
    (if defective.isEmpty then .ok () else .error (.levelsRejected defective))

/-- What a selector selects of the corpus. -/
def selectCorpus (s : Selector) (byName : Bool) (level : Option String) :
    Except CommandError SelectReport := do
  let c ← configOf w path
  let level ← match level with
    | some text => do
      pure (some (← (TriggerLevel.parse text).mapError fun e => .badRequest (.value e)))
    | none => pure none
  let corpus ← (Corpus.load w.files c.planner.corpusPath).mapError .ofPlanner
  let tests := corpus.tests.filter fun t =>
    level.all t.appliesTo && if byName then s.matchesName t.name else s.matchesTags t.tags
  return ⟨s, if byName then [] else unknownTerms c.planner.taxonomy s, none,
    some (tests.map (·.name))⟩

/-- Shows a selector, tried on something. -/
def select (expression : String) (scope : SelectScope) : Except CommandError Result := do
  let s ← (Selector.parse expression).mapError fun e => .badRequest (.selector e)
  let report ← match scope with
    | .nothing => pure ⟨s, unknownTerms defaultTaxonomy s, none, none⟩
    | .tags tags =>
      let tags := NameSet.ofList ((tags.map Text.trim).filter (!·.isEmpty))
      pure ⟨s, unknownTerms defaultTaxonomy s, some (s.matchesTags tags), none⟩
    | .name name => pure ⟨s, [], some (s.matchesName name), none⟩
    | .corpus byName level => selectCorpus w path s byName level
  return .ofPage (.ofSelect report) (.ok ())

/-- Checks profiles for resources that were left running. -/
def leakCheck (profiles : List String) (once : Bool) : Except CommandError Result := do
  let c ← configOf w path
  let targets ← (Profile.chooseTargets (Profile.merge c.profiles) profiles).mapError fun e =>
    .badRequest (.target e)
  let settings := if once then c.leakCheck.once else c.leakCheck
  let checker ← (LeakChecker.ofConfig (.ofLauncher w.launch w.env) settings).mapError
    .unusableConfig
  let course := checker.check targets
  return .ofPage (.ofLeakCheck w.style course) (checkVerdict course.report.verdict)

/-- Carries out the run of a trigger. -/
def run (trigger : String) : Except CommandError Result := do
  let trigger ← triggerOf trigger
  let c ← configOf w path
  let planner ← w.plannerOf c
  let orchestrator ← (w.orchestratorOf c).mapError .ofRun
  let course ← (orchestrator.run planner none trigger).mapError .ofRun
  return .ofPage (.ofRun w.style course) (checkReport course.report)

/-- Shows whether the configuration is valid. -/
def configValidate : Result :=
  let result := w.loadConfig path
  .ofPage (.ofValidation path (result.map fun _ => ()))
    (if result.isOk then .ok () else .error .invalidConfig)

/-- Shows the configuration or a section of it, with its secrets masked. -/
def configShow (part : Option String) : Except CommandError Result := do
  let c := (← configOf w path).redacted
  match part with
  | none => return .ofPage (.ofSettings path none c.fields) (.ok ())
  | some name =>
    match partFields c name with
    | some fields => return .ofPage (.ofSettings path (some name) fields) (.ok ())
    | none => throw (.badRequest (.part name))

end Commands

/-- Carries out a request under the configuration of a file. -/
def Request.execute [Formats] (w : World) (path : String) : Request → Result
  | .plan trigger tests => .ofExcept (Cli.plan w path trigger tests)
  | .verify trigger => .ofExcept (Cli.verify w path trigger)
  | .select expression scope => .ofExcept (Cli.select w path expression scope)
  | .leakCheck profiles once => .ofExcept (Cli.leakCheck w path profiles once)
  | .run trigger => .ofExcept (Cli.run w path trigger)
  | .configValidate => Cli.configValidate w path
  | .configShow part => .ofExcept (Cli.configShow w path part)

/-- Carries out an invocation. -/
def Invocation.execute [Formats] (w : World) (i : Invocation) : Result :=
  i.request.execute w i.configPath

end CiPlan.Cli
