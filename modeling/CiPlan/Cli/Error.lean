import CiPlan.Error
import CiPlan.Leak.Targets
import CiPlan.Plan.Partition
import CiPlan.Run.Report

/-!
# Errors of commands

Why a command fails, how that is worded, and the exit code that tells a script which kind of failure
it was.  A run fails on a leak before it fails on its buckets.
-/

namespace CiPlan.Cli

/-- Something that the user asked for by a text that cannot be used. -/
inductive BadRequest where
  /-- The name of a trigger or of a level. -/
  | value (reason : ConfigError)
  | selector (reason : SelectorError)
  /-- The profiles to check. -/
  | target (reason : TargetError)
  /-- A section of the configuration. -/
  | part (name : String)
  deriving DecidableEq, Repr

def configParts : List String := ["general", "planner", "runner", "leak_check", "profiles"]

def BadRequest.message : BadRequest → String
  | .value reason => reason.message
  | .selector reason => "invalid selector: " ++ reason.message
  | .target reason => reason.message
  | .part name =>
    "unknown section: " ++ name ++ " (expected: " ++ ", ".intercalate configParts ++ ")"

/-- Why a leak check fails. -/
inductive LeakFinding where
  | running (count : Nat)
  | inconclusive (reason : String)
  deriving DecidableEq, Repr

def LeakFinding.message : LeakFinding → String
  | .running count => toString count ++ " resources still running"
  | .inconclusive reason => "inconclusive: " ++ reason

/-- Why a command fails. -/
inductive CommandError where
  /-- The configuration is not valid, where that was the question. -/
  | invalidConfig
  /-- The patterns of the leak check cannot be used. -/
  | unusableConfig (reason : LeakCheckError)
  | badRequest (reason : BadRequest)
  /-- The partition has defects. -/
  | planRejected (reason : PlannerError)
  /-- The partitions of some levels have defects. -/
  | levelsRejected (reports : List PartitionReport)
  | leak (finding : LeakFinding)
  /-- Of so many buckets these did not succeed. -/
  | bucketsFailed (total : Nat) (failed : List String)
  | failure (reason : Failure)

namespace CommandError

/-- The counts of the defects of a level. -/
def levelSummary (r : PartitionReport) : String :=
  r.level.name ++ ": " ++
    PlannerError.defects r.orphans.length r.duplicates.length r.emptyBuckets.length

def message : CommandError → String
  | invalidConfig => "configuration error: configuration is invalid"
  | unusableConfig reason => "configuration error: " ++ reason.message
  | badRequest reason => reason.message
  | planRejected reason => "plan rejected: " ++ reason.message
  | levelsRejected reports => "plan rejected: " ++ "; ".intercalate (reports.map levelSummary)
  | leak finding => "leak check failed: " ++ finding.message
  | bucketsFailed total failed =>
    "bucket failures: " ++ toString failed.length ++ " of " ++ toString total ++ ": " ++
      ", ".intercalate failed
  | failure reason => reason.message

def exitCode : CommandError → Nat
  | badRequest _ => 1
  | invalidConfig | unusableConfig _ => 2
  | planRejected _ | levelsRejected _ => 3
  | leak _ => 4
  | bucketsFailed .. => 5
  | failure (.config _) => 2
  | failure (.io _) => 10
  | failure _ => 1

/-- The error of a planner: a rejected plan is one of its own. -/
def ofPlanner : PlannerError → CommandError
  | reason@(.partitionViolated ..) => planRejected reason
  | reason => failure (.plan reason)

/-- The error of a run. -/
def ofRun : RunError → CommandError
  | .plan reason => ofPlanner reason
  | reason => failure (.ofRun reason)

end CommandError

/-- Fails unless the verdict of a leak check is that nothing is left. -/
def checkVerdict : LeakVerdict → Except CommandError Unit
  | .clean => .ok ()
  | .leaked resources => .error (.leak (.running resources.length))
  | .inconclusive reason => .error (.leak (.inconclusive reason))

/-- Fails unless a run was a success. -/
def checkReport (r : RunReport) : Except CommandError Unit := do
  match r.leakVerdict? with
  | some verdict => checkVerdict verdict
  | none => pure ()
  if r.failed.isEmpty then pure ()
  else throw (.bucketsFailed r.buckets.length (r.failed.map (·.bucket)))

end CiPlan.Cli
