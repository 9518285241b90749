import CiPlan.Config
import CiPlan.Formats

/-!
# Validating a configuration

The settings are checked in a fixed order and the first fault is reported.  What passes can be used
as it is: commands are not empty, times are within bounds, and the patterns compile and have the
groups that are needed.
-/

namespace CiPlan

/-- Fails with a complaint about a field unless a condition holds. -/
def require (condition : Bool) (field : String) (complaint : Complaint) : Except ConfigError Unit :=
  if condition then .ok () else .error (.invalidValue field complaint)

/-- The log levels. -/
def logLevels : List String := ["trace", "debug", "info", "warn", "error"]

/-- The log formats. -/
def logFormats : List String := ["json", "pretty"]

/-- The most buckets that may run at a time. -/
def maxParallelLimit : UInt64 := 64

/-- The longest that a leak check may wait, six hours. -/
def maxLeakWaitSecs : UInt64 := 6 * 3600

/-- The groups that the pattern of status lines is to have. -/
def LeakCheckConfig.neededGroups : List String := ["name", "status"]

/-- A number lies between one and a limit. -/
def isUpTo (limit n : UInt64) : Bool :=
  0 < n && n ≤ limit

/-- The complaint about a number that does not. -/
def outsideUpTo (limit : UInt64) : Complaint :=
  .outside 1 limit.toNat

/-- The pattern of a field. -/
def patternOf [Formats] (field text : String) : Except ConfigError Pattern :=
  (Formats.pattern text).mapError fun e => .invalidValue field (.badPattern e)

/-- Checks the settings of the leak check. -/
def LeakCheckConfig.validate [Formats] (c : LeakCheckConfig) : Except ConfigError Unit := do
  require (0 < c.pollIntervalSecs) "leak_check.poll_interval_secs" .notPositive
  require (c.pollIntervalSecs ≤ c.maxPollIntervalSecs) "leak_check.max_poll_interval_secs"
    .belowPollInterval
  require (isUpTo maxLeakWaitSecs c.maxWaitSecs) "leak_check.max_wait_secs"
    (outsideUpTo maxLeakWaitSecs)
  require (c.initialDelaySecs ≤ c.maxWaitSecs) "leak_check.initial_delay_secs" .aboveMaxWait
  require (0 < c.queryTimeoutSecs) "leak_check.query_timeout_secs" .notPositive
  require (!c.runningStates.isEmpty) "leak_check.running_states" .noRunningState
  let line ← patternOf "leak_check.status_line_pattern" c.statusLinePattern
  LeakCheckConfig.neededGroups.forM fun group =>
    require (line.hasGroup group) "leak_check.status_line_pattern" (.missingGroup group)
  let _ ← patternOf "leak_check.resource_pattern" c.resourcePattern

/-- Checks the names of the profiles after those in `seen`. -/
def validateNames (seen : List String) : List Profile → Except ConfigError Unit
  | [] => .ok ()
  | p :: rest => do
    require (!p.name.isEmpty) "profiles.name" .emptyProfileName
    require (!seen.contains p.name) "profiles.name" (.duplicateProfile p.name)
    validateNames (p.name :: seen) rest

/-- Checks the general settings. -/
def GeneralConfig.validate (c : GeneralConfig) : Except ConfigError Unit := do
  require (logLevels.contains c.logLevel) "general.log_level" (.notOneOf logLevels)
  require (logFormats.contains c.logFormat) "general.log_format" (.notOneOf logFormats)

/-- Checks the planner's settings. -/
def PlannerConfig.validate (c : PlannerConfig) : Except ConfigError Unit :=
  require (!c.taxonomy.isEmpty) "planner.taxonomy" .emptyTaxonomy

/-- Checks the runner's settings. -/
def RunnerConfig.validate (c : RunnerConfig) : Except ConfigError Unit := do
  require (!c.command.isEmpty) "runner.pytest_command" .emptyCommand
  require (isUpTo maxParallelLimit c.maxParallel) "runner.max_parallel"
    (outsideUpTo maxParallelLimit)
  require (isUpTo maxBucketTimeoutSecs c.defaultTimeoutSecs) "runner.default_timeout_secs"
    (outsideUpTo maxBucketTimeoutSecs)

/-- Checks the configuration. -/
def Config.validate [Formats] (c : Config) : Except ConfigError Unit := do
  c.general.validate
  c.planner.validate
  c.runner.validate
  c.leakCheck.validate
  validateNames [] c.profiles

end CiPlan
