import CiPlan.Leak.Verdict
import CiPlan.Outcome

/-!
# Run reports

What came of a run: the result of every bucket, in the order of the plan, and what happened at the
leak check.  A run is a success when every bucket succeeded and the leak check, if there was one,
found that nothing is left.
-/

namespace CiPlan

/-- The result of a bucket. -/
structure BucketResult where
  bucket : String
  profile : String
  /-- How many tests the plan gave to the bucket. -/
  tests : Nat
  outcome : BucketOutcome
  /-- The start that is reported, on the clock of the run. -/
  startedAt : Duration
  duration : Duration
  deriving DecidableEq, Repr

/-- The written form.  Clock readings are left out. -/
def BucketResult.toJson (b : BucketResult) : Json :=
  .obj [("bucket", .str b.bucket), ("profile", .str b.profile), ("tests", .nat b.tests),
    ("outcome", b.outcome.toJson)]

/-- What happened at the leak check. -/
inductive LeakCheckStatus where
  /-- The trigger has none. -/
  | notScheduled
  /-- The configuration has switched it off. -/
  | disabled
  | completed (report : LeakReport)
  deriving DecidableEq, Repr

namespace LeakCheckStatus

/-- The report of the leak check, if there was one. -/
def report? : LeakCheckStatus → Option LeakReport
  | completed report => some report
  | _ => none

def toJson : LeakCheckStatus → Json
  | notScheduled => .obj [("status", .str "not_scheduled")]
  | disabled => .obj [("status", .str "disabled")]
  | completed report => .obj [("status", .str "completed"), ("report", .obj report.fields)]

end LeakCheckStatus

/-- What came of a run. -/
structure RunReport where
  trigger : TriggerEvent
  /-- The results in the order of the plan. -/
  buckets : List BucketResult
  leakCheck : LeakCheckStatus
  deriving DecidableEq, Repr

namespace RunReport

def level (r : RunReport) : TriggerLevel := (Gate.ofTrigger r.trigger).level

/-- The buckets that did not succeed. -/
def failed (r : RunReport) : List BucketResult :=
  r.buckets.filter (!·.outcome.isSuccess)

def allSucceeded (r : RunReport) : Bool :=
  r.buckets.all (·.outcome.isSuccess)

/-- The verdict of the leak check, if there was one. -/
def leakVerdict? (r : RunReport) : Option LeakVerdict :=
  r.leakCheck.report?.map LeakReport.verdict

/-- The leak check is no reason to fail. -/
def leakCheckPassed (r : RunReport) : Bool :=
  r.leakVerdict?.all LeakVerdict.isClean

def isSuccess (r : RunReport) : Bool :=
  r.allSucceeded && r.leakCheckPassed

/-- How many buckets ended with a label. -/
def count (r : RunReport) (label : String) : Nat :=
  r.buckets.countP (·.outcome.label == label)

def fields (r : RunReport) : List (String × Json) :=
  [("trigger", r.trigger.toJson), ("level", r.level.toJson),
    ("buckets", .arr (r.buckets.map BucketResult.toJson)), ("leak_check", r.leakCheck.toJson)]

def toJson (r : RunReport) : Json := .obj r.fields

end RunReport

end CiPlan
