import CiPlan.Bindings
import CiPlan.Config
import CiPlan.Text.Blank

/-!
# Overriding settings by the environment

Each setting of each section has a variable of its own, except the pattern of status lines.  Where
the variable is set and its text can be read as the type of the setting, that is the setting; where
not, the setting stays.  Profiles have no variables.
-/

namespace CiPlan

namespace Environment

/-- A truth value. -/
def bool? : String → Option Bool
  | "true" => some true
  | "false" => some false
  | _ => none

/-- A 64-bit count in decimal digits, with or without a plus. -/
def count? (text : String) : Option UInt64 :=
  let digits := match text.toList with
    | '+' :: digits => digits
    | digits => digits
  if !digits.isEmpty && digits.all Char.isDigit then
    let n := digits.foldl (fun n d => 10 * n + (d.toNat - '0'.toNat)) 0
    if h : n < UInt64.size then some (UInt64.ofNatLT n h) else none
  else none

/-- The parts of a text between the occurrences of a character; `acc` holds the part that is being
read, latest first. -/
def splitAt (separator : Char) (acc : List Char) : List Char → List (List Char)
  | [] => [acc.reverse]
  | c :: cs =>
    if c == separator then acc.reverse :: splitAt separator [] cs
    else splitAt separator (c :: acc) cs

/-- The items of a list between commas, without surrounding blanks and without empty items. -/
def items (text : String) : List String :=
  ((splitAt ',' [] text.toList).map fun item => String.ofList (Text.trimChars item)).filter
    (!·.isEmpty)

/-- The setting that a variable gives, or the present one. -/
def override {α : Type} (env : Environment) (name : String) (read : String → Option α)
    (present : α) : α :=
  ((env name).bind read).getD present

end Environment

open Environment

/-- The general settings under an environment. -/
def GeneralConfig.override (env : Environment) (c : GeneralConfig) : GeneralConfig where
  logLevel := Environment.override env "TESTGATE_GENERAL_LOG_LEVEL" some c.logLevel
  logFormat := Environment.override env "TESTGATE_GENERAL_LOG_FORMAT" some c.logFormat

/-- The planner's settings under an environment. -/
def PlannerConfig.override (env : Environment) (c : PlannerConfig) : PlannerConfig where
  matrixPath := Environment.override env "TESTGATE_PLANNER_MATRIX_PATH" some c.matrixPath
  corpusPath := Environment.override env "TESTGATE_PLANNER_CORPUS_PATH" some c.corpusPath
  taxonomy := Environment.override env "TESTGATE_PLANNER_TAXONOMY" (some ∘ items) c.taxonomy

/-- The runner's settings under an environment. -/
def RunnerConfig.override (env : Environment) (c : RunnerConfig) : RunnerConfig where
  command := Environment.override env "TESTGATE_RUNNER_PYTEST_COMMAND" (some ∘ items) c.command
  testPath := Environment.override env "TESTGATE_RUNNER_TEST_PATH" some c.testPath
  maxParallel := Environment.override env "TESTGATE_RUNNER_MAX_PARALLEL" count? c.maxParallel
  defaultTimeoutSecs :=
    Environment.override env "TESTGATE_RUNNER_DEFAULT_TIMEOUT_SECS" count? c.defaultTimeoutSecs

/-- The settings of the leak check under an environment. -/
def LeakCheckConfig.override (env : Environment) (c : LeakCheckConfig) : LeakCheckConfig where
  enabled := Environment.override env "TESTGATE_LEAK_CHECK_ENABLED" bool? c.enabled
  initialDelaySecs :=
    Environment.override env "TESTGATE_LEAK_CHECK_INITIAL_DELAY_SECS" count? c.initialDelaySecs
  pollIntervalSecs :=
    Environment.override env "TESTGATE_LEAK_CHECK_POLL_INTERVAL_SECS" count? c.pollIntervalSecs
  maxPollIntervalSecs :=
    Environment.override env "TESTGATE_LEAK_CHECK_MAX_POLL_INTERVAL_SECS" count?
      c.maxPollIntervalSecs
  maxWaitSecs := Environment.override env "TESTGATE_LEAK_CHECK_MAX_WAIT_SECS" count? c.maxWaitSecs
  queryTimeoutSecs :=
    Environment.override env "TESTGATE_LEAK_CHECK_QUERY_TIMEOUT_SECS" count? c.queryTimeoutSecs
  runningStates :=
    Environment.override env "TESTGATE_LEAK_CHECK_RUNNING_STATES" (some ∘ items) c.runningStates
  resourcePattern :=
    Environment.override env "TESTGATE_LEAK_CHECK_RESOURCE_PATTERN" some c.resourcePattern
  statusLinePattern := c.statusLinePattern

/-- The configuration under an environment. -/
def Config.override (env : Environment) (c : Config) : Config where
  general := c.general.override env
  planner := c.planner.override env
  runner := c.runner.override env
  leakCheck := c.leakCheck.override env
  profiles := c.profiles

end CiPlan
