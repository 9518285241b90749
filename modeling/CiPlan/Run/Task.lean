import CiPlan.Outcome
import CiPlan.Plan
import CiPlan.Run.Error

/-!
# Bucket tasks

A bucket is carried out by a task, which an executor describes: how long it takes when nothing stops
it, and how it ends.  A task that takes longer than the time limit of its bucket is stopped when the
limit is reached.
-/

namespace CiPlan

/-- How a task ends when nothing stops it. -/
inductive TaskEnd where
  /-- The tests ran. -/
  | outcome (outcome : BucketOutcome)
  /-- The tests could not be run. -/
  | error (reason : RunError)
  /-- The task itself died. -/
  | aborted
  deriving DecidableEq, Repr

/-- What a task does when nothing stops it. -/
structure Attempt where
  ending : TaskEnd
  delay : Duration
  deriving DecidableEq, Repr

/-- What carrying out a bucket at a level does. -/
abbrev Executor := PlannedBucket → TriggerLevel → Attempt

/-- The reason that is reported for a task that died. -/
def abortedReason : String := "bucket task aborted"

/-- The outcome that a task reports at its end.  A task that died reports nothing. -/
def TaskEnd.outcome? : TaskEnd → Option BucketOutcome
  | outcome o => some o
  | error reason => some (.failed none reason.message)
  | aborted => none

/-- The task under a time limit.  A task that ends when the limit is reached still counts. -/
def Attempt.within (limitSecs : UInt64) (a : Attempt) : Attempt :=
  if a.delay ≤ Duration.ofSecs limitSecs then a
  else ⟨.outcome (.timedOut limitSecs), .ofSecs limitSecs⟩

/-- The task of a bucket under its time limit. -/
def Executor.task (executor : Executor) (defaultSecs : UInt64) (level : TriggerLevel)
    (planned : PlannedBucket) : Attempt :=
  (executor planned level).within (planned.bucket.effectiveTimeout defaultSecs)

end CiPlan
