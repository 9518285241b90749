import CiPlan.Config.Error
import CiPlan.Profile
import CiPlan.TestCase
import CiPlan.Time

/-!
# The configuration

The settings in four sections and the configured profiles, with their defaults and written form.
Every setting may be left out of a file and then has its default.
-/

namespace CiPlan

/-- General settings. -/
structure GeneralConfig where
  logLevel : String
  logFormat : String
  deriving DecidableEq

/-- Where plans come from. -/
structure PlannerConfig where
  /-- The file of the matrix; the built-in one when empty. -/
  matrixPath : String
  /-- The file of the corpus. -/
  corpusPath : String
  /-- The tags that are known. -/
  taxonomy : List String
  deriving DecidableEq

/-- How buckets run. -/
structure RunnerConfig where
  /-- The program that runs tests, and its first arguments. -/
  command : List String
  /-- The path that is given to it; none when empty. -/
  testPath : String
  /-- How many buckets may run at a time. -/
  maxParallel : UInt64
  /-- The time limit of a bucket that has none of its own. -/
  defaultTimeoutSecs : UInt64
  deriving DecidableEq

/-- How resources that were left running are looked for. -/
structure LeakCheckConfig where
  enabled : Bool
  /-- How long the first round of queries is put off. -/
  initialDelaySecs : UInt64
  /-- The first pause between rounds; each pause is twice the one before. -/
  pollIntervalSecs : UInt64
  /-- The longest pause, which also follows a round with a failure. -/
  maxPollIntervalSecs : UInt64
  /-- After this time no round starts. -/
  maxWaitSecs : UInt64
  /-- The time limit of a query. -/
  queryTimeoutSecs : UInt64
  /-- The states in which a resource counts as running, in any case of ASCII letters. -/
  runningStates : List String
  /-- The pattern of the names of the resources that belong to the run. -/
  resourcePattern : String
  /-- The pattern of a line of a listing, with groups for the name and the state. -/
  statusLinePattern : String
  deriving DecidableEq

/-- The configuration. -/
structure Config where
  general : GeneralConfig
  planner : PlannerConfig
  runner : RunnerConfig
  leakCheck : LeakCheckConfig
  profiles : List Profile
  deriving DecidableEq

namespace GeneralConfig

/-- The settings when nothing is said. -/
def default : GeneralConfig := ⟨"info", "json"⟩

def fields (c : GeneralConfig) : List (String × Json) :=
  [("log_level", .str c.logLevel), ("log_format", .str c.logFormat)]

/-- Reads the written form. -/
def ofJson? (j : Json) : Option GeneralConfig := do
  let fields ← j.fields? ["log_level", "log_format"]
  let logLevel ← fields.withDefault "log_level" default.logLevel Json.str?
  let logFormat ← fields.withDefault "log_format" default.logFormat Json.str?
  return ⟨logLevel, logFormat⟩

/-- The settings with another level or format, where one is given. -/
def withLogging (c : GeneralConfig) (level format : Option String) : GeneralConfig :=
  ⟨level.getD c.logLevel, format.getD c.logFormat⟩

end GeneralConfig

namespace PlannerConfig

/-- The settings when nothing is said. -/
def default : PlannerConfig := ⟨"", "tests/corpus.yml", defaultTaxonomy⟩

def fields (c : PlannerConfig) : List (String × Json) :=
  [("matrix_path", .str c.matrixPath), ("corpus_path", .str c.corpusPath),
    ("taxonomy", .strs c.taxonomy)]

/-- Reads the written form. -/
def ofJson? (j : Json) : Option PlannerConfig := do
  let fields ← j.fields? ["matrix_path", "corpus_path", "taxonomy"]
  let matrixPath ← fields.withDefault "matrix_path" default.matrixPath Json.str?
  let corpusPath ← fields.withDefault "corpus_path" default.corpusPath Json.str?
  let taxonomy ← fields.withDefault "taxonomy" default.taxonomy (Json.list? Json.str?)
  return ⟨matrixPath, corpusPath, taxonomy⟩

end PlannerConfig

namespace RunnerConfig

/-- The settings when nothing is said. -/
def default : RunnerConfig := ⟨["pytest", "-v"], "tests", 8, 3600⟩

def fields (c : RunnerConfig) : List (String × Json) :=
  [("pytest_command", .strs c.command), ("test_path", .str c.testPath),
    ("max_parallel", .u64 c.maxParallel), ("default_timeout_secs", .u64 c.defaultTimeoutSecs)]

/-- Reads the written form. -/
def ofJson? (j : Json) : Option RunnerConfig := do
  let fields ← j.fields? ["pytest_command", "test_path", "max_parallel", "default_timeout_secs"]
  let command ← fields.withDefault "pytest_command" default.command (Json.list? Json.str?)
  let testPath ← fields.withDefault "test_path" default.testPath Json.str?
  let maxParallel ← fields.withDefault "max_parallel" default.maxParallel Json.u64?
  let timeout ← fields.withDefault "default_timeout_secs" default.defaultTimeoutSecs Json.u64?
  return ⟨command, testPath, maxParallel, timeout⟩

end RunnerConfig

namespace LeakCheckConfig

/-- The settings when nothing is said. -/
def default : LeakCheckConfig where
  enabled := true
  initialDelaySecs := 30
  pollIntervalSecs := 15
  maxPollIntervalSecs := 120
  maxWaitSecs := 900
  queryTimeoutSecs := 120
  runningStates := ["UP", "INIT"]
  resourcePattern := ".*"
  statusLinePattern := "^(?P<name>\\S+)\\s+.*?\\b(?P<status>UP|INIT|STOPPED)\\b"

def fields (c : LeakCheckConfig) : List (String × Json) :=
  [("enabled", .bool c.enabled), ("initial_delay_secs", .u64 c.initialDelaySecs),
    ("poll_interval_secs", .u64 c.pollIntervalSecs),
    ("max_poll_interval_secs", .u64 c.maxPollIntervalSecs),
    ("max_wait_secs", .u64 c.maxWaitSecs), ("query_timeout_secs", .u64 c.queryTimeoutSecs),
    ("running_states", .strs c.runningStates), ("resource_pattern", .str c.resourcePattern),
    ("status_line_pattern", .str c.statusLinePattern)]

/-- Reads the written form. -/
def ofJson? (j : Json) : Option LeakCheckConfig := do
  let fields ← j.fields? ["enabled", "initial_delay_secs", "poll_interval_secs",
    "max_poll_interval_secs", "max_wait_secs", "query_timeout_secs", "running_states",
    "resource_pattern", "status_line_pattern"]
  let d := default
  let enabled ← fields.withDefault "enabled" d.enabled Json.bool?
  let initialDelay ← fields.withDefault "initial_delay_secs" d.initialDelaySecs Json.u64?
  let pollInterval ← fields.withDefault "poll_interval_secs" d.pollIntervalSecs Json.u64?
  let maxPollInterval ← fields.withDefault "max_poll_interval_secs" d.maxPollIntervalSecs Json.u64?
  let maxWait ← fields.withDefault "max_wait_secs" d.maxWaitSecs Json.u64?
  let queryTimeout ← fields.withDefault "query_timeout_secs" d.queryTimeoutSecs Json.u64?
  let states ← fields.withDefault "running_states" d.runningStates (Json.list? Json.str?)
  let resource ← fields.withDefault "resource_pattern" d.resourcePattern Json.str?
  let line ← fields.withDefault "status_line_pattern" d.statusLinePattern Json.str?
  return ⟨enabled, initialDelay, pollInterval, maxPollInterval, maxWait, queryTimeout, states,
    resource, line⟩

/-- The settings for asking once and at once: no delay, and no time for another round. -/
def once (c : LeakCheckConfig) : LeakCheckConfig :=
  { c with initialDelaySecs := 0, maxWaitSecs := 0 }

end LeakCheckConfig

namespace Config

/-- The configuration when nothing is said. -/
def default : Config := ⟨.default, .default, .default, .default, []⟩

def fields (c : Config) : List (String × Json) :=
  [("general", .obj c.general.fields), ("planner", .obj c.planner.fields),
    ("runner", .obj c.runner.fields), ("leak_check", .obj c.leakCheck.fields),
    ("profiles", .arr (c.profiles.map Profile.toJson))]

def toJson (c : Config) : Json := .obj c.fields

/-- Reads the written form. -/
def ofJson? (j : Json) : Option Config := do
  let fields ← j.fields? ["general", "planner", "runner", "leak_check", "profiles"]
  let general ← fields.withDefault "general" .default GeneralConfig.ofJson?
  let planner ← fields.withDefault "planner" .default PlannerConfig.ofJson?
  let runner ← fields.withDefault "runner" .default RunnerConfig.ofJson?
  let leakCheck ← fields.withDefault "leak_check" .default LeakCheckConfig.ofJson?
  let profiles ← fields.withDefault "profiles" [] (Json.list? Profile.ofJson?)
  return ⟨general, planner, runner, leakCheck, profiles⟩

/-- The first configured profile with a name. -/
def profile? (c : Config) (name : String) : Option Profile :=
  c.profiles.find? (·.name == name)

/-- The configuration with the secret texts of its profiles masked, for showing. -/
def redacted (c : Config) : Config :=
  { c with profiles := c.profiles.map Profile.redacted }

end Config

end CiPlan
