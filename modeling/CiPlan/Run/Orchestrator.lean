import CiPlan.Leak.Poll
import CiPlan.Run.Phase

/-!
# Carrying out a plan

The buckets of a plan run side by side, as many at a time as there are slots, each to an end of its
own: no bucket affects another.  When every bucket has ended, the leak check follows if the plan has
one, whatever came of the buckets and also when the run was cancelled.

A run is a function of what its executor and its status client do and of the time at which it is
cancelled, if it is.
-/

namespace CiPlan

/-- What carries out plans. -/
structure Orchestrator where
  executor : Executor
  checker : LeakChecker
  leakCheckEnabled : Bool
  /-- How many buckets may run at a time. -/
  slots : Nat
  /-- Some bucket may run. -/
  slots_pos : 0 < slots
  /-- The time limit of a bucket that has none of its own. -/
  defaultTimeoutSecs : UInt64

/-- The course of a run. -/
structure RunCourse where
  report : RunReport
  /-- The tasks of the buckets, in the order in which they ended. -/
  ended : List EndedTask
  /-- When the last bucket had ended. -/
  bucketPhase : Duration
  /-- When the leak check began, if there was one. -/
  leakCheckStart : Option Duration
  /-- The queries of the leak check; their times count from its start. -/
  queries : List Query
  /-- How long the run took. -/
  elapsed : Duration
  metrics : List Metric.Sample

namespace RunCourse

/-- The course of a run that is over with its bucket phase, and what there is to say instead of a
leak check. -/
def unchecked (plan : Plan) (phase : Phase) (status : LeakCheckStatus) : RunCourse :=
  let ended := phase.ended.reverse
  ⟨⟨plan.trigger, gather plan.buckets ended phase.now, status⟩, ended, phase.now, none, [],
    phase.now, ended.flatMap EndedTask.metrics⟩

/-- The course of a run with a leak check after its bucket phase. -/
def checked (plan : Plan) (phase : Phase) (check : LeakChecker.Course) : RunCourse :=
  let run := unchecked plan phase (.completed check.report)
  { run with
    leakCheckStart := some run.bucketPhase
    queries := check.queries
    elapsed := run.bucketPhase + check.elapsed
    metrics := run.metrics ++ check.metrics }

end RunCourse

namespace Orchestrator

/-- The orchestrator of a configuration. -/
def ofConfig [Formats] (executor : Executor) (client : StatusClient) (c : Config) :
    Except RunError Orchestrator := do
  let checker ← (LeakChecker.ofConfig client c.leakCheck).mapError .leakCheck
  return ⟨executor, checker, c.leakCheck.enabled, max 1 c.runner.maxParallel.toNat,
    Nat.lt_of_lt_of_le Nat.one_pos (Nat.le_max_left ..), c.runner.defaultTimeoutSecs⟩

/-- What the task of a bucket does. -/
def attempt (o : Orchestrator) (level : TriggerLevel) (planned : PlannedBucket) : Attempt :=
  o.executor.task o.defaultTimeoutSecs level planned

def tasks (o : Orchestrator) (plan : Plan) : List BucketTask :=
  plan.buckets.zipIdx.map fun (planned, index) => ⟨index, planned, o.attempt plan.level planned⟩

/-- The bucket phase of a plan when every task has ended. -/
def runBuckets (o : Orchestrator) (cancel : Option Duration) (plan : Plan) : Phase :=
  (Phase.start (o.tasks plan)).run o.slots cancel

/-- The course of a run whose bucket phase is over. -/
def conclude (o : Orchestrator) (plan : Plan) (phase : Phase) : RunCourse :=
  if !plan.leakCheckScheduled then .unchecked plan phase .notScheduled
  else if !o.leakCheckEnabled then .unchecked plan phase .disabled
  else .checked plan phase (o.checker.check plan.leakCheckTargets)

/-- Carries out a plan, cancelled at some time or never. -/
def execute (o : Orchestrator) (cancel : Option Duration) (plan : Plan) : RunCourse :=
  o.conclude plan (o.runBuckets cancel plan)

/-- Plans and carries out the run of a trigger. -/
def run (o : Orchestrator) (planner : Planner) (cancel : Option Duration) (trigger : TriggerEvent) :
    Except RunError RunCourse := do
  let plan ← (planner.plan trigger).mapError .plan
  let course := o.execute cancel plan
  return { course with metrics := planner.planMetrics trigger ++ course.metrics }

end Orchestrator

end CiPlan
