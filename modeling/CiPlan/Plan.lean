import CiPlan.Plan.Partition
import CiPlan.Profile.Defaults

/-!
# Plans

A planner holds a taxonomy, a matrix, a corpus and profiles among which each bucket finds its own.
For a trigger it makes the plan of a run, provided that the active buckets divide up the tests: which
buckets run which tests under which profile, and what the leak check looks at.
-/

namespace CiPlan

/-- A bucket with its profile and its tests. -/
structure PlannedBucket where
  bucket : Bucket
  profile : Profile
  tests : List String
  deriving DecidableEq

/-- What a run does. -/
structure Plan where
  trigger : TriggerEvent
  /-- The active buckets, in the order of the matrix. -/
  buckets : List PlannedBucket
  /-- The profiles that the leak check asks about. -/
  leakCheckTargets : List Profile
  warnings : List LintWarning
  deriving DecidableEq

namespace PlannedBucket

def toJson (b : PlannedBucket) : Json :=
  .obj [("bucket", b.bucket.toJson), ("profile", b.profile.toJson), ("tests", .strs b.tests)]

end PlannedBucket

namespace Plan

/-- The gate of the run. -/
def gate (p : Plan) : Gate := .ofTrigger p.trigger

def level (p : Plan) : TriggerLevel := p.gate.level

/-- A leak check ends the run. -/
def leakCheckScheduled (p : Plan) : Bool := p.gate.schedulesLeakCheck

/-- The plan with the secret texts of its profiles masked, for showing. -/
def redacted (p : Plan) : Plan :=
  { p with
    buckets := p.buckets.map fun b => { b with profile := b.profile.redacted }
    leakCheckTargets := p.leakCheckTargets.map Profile.redacted }

def toJson (p : Plan) : Json :=
  .obj [("trigger", p.trigger.toJson), ("gate", p.gate.toJson), ("level", p.level.toJson),
    ("buckets", .arr (p.buckets.map PlannedBucket.toJson)),
    ("leak_check", .bool p.leakCheckScheduled),
    ("leak_check_targets", .arr (p.leakCheckTargets.map Profile.toJson)),
    ("warnings", .arr (p.warnings.map LintWarning.toJson))]

/-- Adds the profile of one more bucket to the targets of the leak check, if it is one and none of
its name is there. -/
def addTarget (targets : List Profile) (p : Profile) : List Profile :=
  if p.isLeakCheckTarget && !targets.any (·.name == p.name) then targets ++ [p] else targets

end Plan

/-- What plans are made from. -/
structure Planner where
  taxonomy : List String
  matrix : Matrix
  corpus : Corpus
  profiles : List Profile
  /-- Each bucket finds its profile. -/
  checked : matrix.checkProfiles profiles = .ok ()

namespace Planner

/-- The planner of these parts. -/
def ofParts (taxonomy : List String) (matrix : Matrix) (corpus : Corpus)
    (profiles : List Profile) : Except PlannerError Planner :=
  match h : matrix.checkProfiles profiles with
  | .ok () => .ok ⟨taxonomy, matrix, corpus, profiles, h⟩
  | .error e => .error e

/-- The partition at a level. -/
def verify (p : Planner) (level : TriggerLevel) : PartitionReport :=
  verifyPartition p.taxonomy p.matrix p.corpus level

/-- The profile of a bucket. -/
def profileOf (p : Planner) (b : Bucket) : Except PlannerError Profile :=
  match Profile.find? p.profiles b.profile with
  | some profile => .ok profile
  | none => .error (.invalidBucket b.name (.unknownProfile b.profile))

/-- The plan for a trigger. -/
def plan (p : Planner) (trigger : TriggerEvent) : Except PlannerError Plan := do
  let level := (Gate.ofTrigger trigger).level
  let report := p.verify level
  report.ensureClean
  let buckets ← ((p.matrix.active level).zip report.selections).mapM fun (bucket, selection) => do
    return { bucket, profile := ← p.profileOf bucket, tests := selection.tests : PlannedBucket }
  return {
    trigger, buckets
    leakCheckTargets := buckets.foldl (fun targets b => Plan.addTarget targets b.profile) []
    warnings := report.warnings }

/-- The metrics of making a plan. -/
def planMetrics (p : Planner) (trigger : TriggerEvent) : List Metric.Sample :=
  let level := (Gate.ofTrigger trigger).level
  (p.verify level).metrics ++ match p.plan trigger with
    | .ok _ => [Metric.increment .plansTotal [("level", level.name)]]
    | .error _ => []

end Planner

end CiPlan
