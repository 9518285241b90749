import CiPlan.Cli.Command

/-!
# The batch program

The form in which a pipeline runs the library: no subcommands, the report of the run as JSON, and an
error with the chain of its causes.  Its exit codes agree with those of the command that carries out a
run.
-/

namespace CiPlan.Cli.Batch

/-- What a pipeline asks for. -/
structure Invocation where
  configPath : String
  trigger : String
  logLevel : Option String
  logFormat : Option String
  /-- Only the plan is made and shown. -/
  dryRun : Bool
  deriving DecidableEq, Repr

/-- What the program understands. -/
def grammar : Grammar where
  options := [⟨"config", some 'c', .path, false⟩, ⟨"trigger", some 't', .text, false⟩,
    ⟨"log-level", none, .text, false⟩, ⟨"log-format", none, .text, false⟩,
    ⟨"dry-run", none, .switch, false⟩]
  subcommands := []
  operands := 0
  versioned := true

/-- Reads the words of a command line. -/
def Invocation.parse (words : List String) : Except Stop Invocation := do
  let r ← grammar.read words
  match r.value? "trigger" with
  | none => throw .misuse
  | some trigger =>
    return ⟨(r.value? "config").getD "testgate.toml", trigger, r.value? "log-level",
      r.value? "log-format", r.has "dry-run"⟩

/-- Why a program fails: a message, and the messages of its causes, nearest first. -/
structure Report where
  message : String
  causes : List String
  deriving DecidableEq, Repr

namespace Report

/-- The lines of a message, the first behind a label and the others below it. -/
def indented (first others message : String) : String :=
  first ++ ("\n" ++ others).intercalate (message.splitOn "\n")

/-- A cause in a list of several. -/
def numbered (cause : String × Nat) : String :=
  indented (Page.padStart 5 (toString cause.2) ++ ": ") "       " cause.1

def text (r : Report) : String :=
  let causes := match r.causes with
    | [] => []
    | [cause] => ["", "Caused by:", indented "    " "    " cause]
    | causes => ["", "Caused by:"] ++ causes.zipIdx.map numbered
  Page.lines (("Error: " ++ r.message) :: causes)

/-- The causes of a failure, which is the first of them. -/
def causesOf (e : Failure) : List String :=
  e.message :: match e with
    | .config reason => [reason.message]
    | .io reason => [reason.message]
    | _ => []

/-- A failure while something was done. -/
def doing (message : String) (e : Failure) : Report := ⟨message, causesOf e⟩

/-- The failure of a planner. -/
def ofPlanner (e : PlannerError) : Report :=
  ⟨e.message, match e with
    | .selector _ reason => [reason.message]
    | _ => []⟩

end Report

/-- What came of the program: its exit code and what it writes. -/
structure Result where
  exitCode : Nat
  json : Option Json
  error : Option Report

namespace Result

/-- The program ended without an error of its own. -/
def ended (exitCode : Nat) (json : Option Json) : Result := ⟨exitCode, json, none⟩

def stdout (r : Result) : String :=
  match r.json with
  | some j => j.pretty 0 ++ "\n"
  | none => ""

def stderr (r : Result) : String :=
  match r.error with
  | some e => e.text
  | none => ""

end Result

def exitCodeOf (r : RunReport) : Nat :=
  if !r.leakCheckPassed then 4 else if !r.allSucceeded then 5 else 0

/-- The configuration under the options of an invocation. -/
def settings [Formats] (w : World) (i : Invocation) : Except Report Config := do
  let c ← (w.loadConfig i.configPath).mapError
    (.doing ("failed to load config " ++ i.configPath))
  let c := { c with general := c.general.withLogging i.logLevel i.logFormat }
  c.validate.mapError fun e => .doing "invalid command-line override" (.config e)
  return c

/-- Carries out an invocation.  A rejected plan has an exit code of its own and no message. -/
def attempt [Formats] (w : World) (i : Invocation) : Except Report Result := do
  let c ← settings w i
  let trigger ← (TriggerEvent.parse i.trigger).mapError fun e => ⟨e.message, []⟩
  let planner ← (Planner.ofConfig w.files c).mapError .ofPlanner
  if i.dryRun then
    match planner.plan trigger with
    | .ok p => return .ended 0 (some p.redacted.toJson)
    | .error _ => return .ended 3 none
  let orchestrator ← (w.orchestratorOf c).mapError fun e => ⟨e.message, []⟩
  match orchestrator.run planner none trigger with
  | .ok course => return .ended (exitCodeOf course.report) (some course.report.toJson)
  | .error (.plan _) => return .ended 3 none
  | .error e => throw ⟨e.message, []⟩

/-- Carries out an invocation. -/
def Invocation.execute [Formats] (w : World) (i : Invocation) : Result :=
  match attempt w i with
  | .ok r => r
  | .error e => ⟨1, none, some e⟩

end CiPlan.Cli.Batch
