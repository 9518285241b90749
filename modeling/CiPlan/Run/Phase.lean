import CiPlan.Metric
import CiPlan.Run.Report
import CiPlan.Run.Task

/-!
# The bucket phase

Each bucket of a plan has a task.  The tasks wait in the order of the plan for one of a fixed number
of slots; a task that has a slot runs until it ends by itself, and its slot is free again.  When the
run is cancelled, the tasks that are running are stopped and those that are waiting never start.

A task that ends hands over its result together with its place in the plan, unless it died.  So the
results come in the order in which tasks end, and are put at their places when every task has ended;
a place that is left over then belongs to a task that died.

The start that a result reports is a reading of the clock.  A task reads it when it has got its slot,
or when the run was cancelled while it still waited.  For a task that died it is read when every task
has ended, so what is reported of it is not when it got its slot.

Main statement: `length_gather`, there is one result for each bucket.
-/

namespace CiPlan

/-- The task of a bucket. -/
structure BucketTask where
  /-- The place of the bucket in the plan. -/
  index : Nat
  planned : PlannedBucket
  /-- What the task does under the time limit of the bucket. -/
  attempt : Attempt
  deriving DecidableEq

/-- A task that has a slot. -/
structure RunningTask where
  task : BucketTask
  start : Duration
  deriving DecidableEq

/-- A task that has ended. -/
structure EndedTask where
  task : BucketTask
  /-- When it got its slot; it never had one when missing. -/
  start : Option Duration
  finish : Duration
  /-- What it reports; it died when missing. -/
  outcome : Option BucketOutcome
  deriving DecidableEq

/-- A waiting task that never starts, since the run is cancelled at some time. -/
def BucketTask.prevented (t : BucketTask) (time : Duration) : EndedTask :=
  ⟨t, none, time, some .cancelled⟩

namespace RunningTask

/-- When the task ends by itself. -/
def finish (r : RunningTask) : Duration := r.start + r.task.attempt.delay

/-- The task when it has ended by itself. -/
def ended (r : RunningTask) : EndedTask :=
  ⟨r.task, some r.start, r.finish, r.task.attempt.ending.outcome?⟩

/-- The task when it was stopped at some time. -/
def stopped (r : RunningTask) (time : Duration) : EndedTask :=
  ⟨r.task, some r.start, time, some .cancelled⟩

/-- Takes the task that ends first out of a list; of several, the one that is listed first. -/
def takeSoonest : List RunningTask → Option (RunningTask × List RunningTask)
  | [] => none
  | r :: rest =>
    match takeSoonest rest with
    | none => some (r, rest)
    | some (u, others) =>
      if u.finish < r.finish then some (u, r :: others) else some (r, rest)

end RunningTask

namespace EndedTask

/-- When the task read the clock: as soon as it no longer waited. -/
def startedAt (e : EndedTask) : Duration := e.start.getD e.finish

/-- For how long the task had its slot. -/
def duration (e : EndedTask) : Duration := e.finish - e.startedAt

/-- The result that the task hands over. -/
def result? (e : EndedTask) : Option BucketResult :=
  e.outcome.map fun outcome =>
    ⟨e.task.planned.bucket.name, e.task.planned.profile.name, e.task.planned.tests.length, outcome,
      e.startedAt, e.duration⟩

/-- The result with the place that it belongs to. -/
def delivery? (e : EndedTask) : Option (Nat × BucketResult) :=
  e.result?.map fun r => (e.task.index, r)

/-- The metrics that the task reports with its result. -/
def metrics (e : EndedTask) : List Metric.Sample :=
  match e.result? with
  | none => []
  | some r => [Metric.increment .bucketsTotal [("result", r.outcome.label)],
      Metric.record .bucketDuration r.duration]

end EndedTask

/-- The state of the bucket phase. -/
structure Phase where
  now : Duration
  /-- The tasks without a slot, in the order in which they get one. -/
  waiting : List BucketTask
  running : List RunningTask
  /-- Latest first. -/
  ended : List EndedTask
  deriving DecidableEq

namespace Phase

/-- At first every task waits. -/
def start (tasks : List BucketTask) : Phase := ⟨0, tasks, [], []⟩

def isOver (p : Phase) : Bool := p.waiting.isEmpty && p.running.isEmpty

/-- The phase has reached the time at which the run is cancelled. -/
def isCancelled (p : Phase) (cancel : Option Duration) : Bool :=
  cancel.any (· ≤ p.now)

/-- The first waiting task takes a slot, if one is free and the run is not cancelled. -/
def grant? (slots : Nat) (cancel : Option Duration) (p : Phase) : Option Phase :=
  match p.waiting with
  | [] => none
  | t :: rest =>
    if p.running.length < slots && !p.isCancelled cancel then
      some { p with waiting := rest, running := p.running ++ [⟨t, p.now⟩] }
    else none

/-- The next of the running tasks ends, unless the run is cancelled before. -/
def complete? (cancel : Option Duration) (p : Phase) : Option Phase :=
  match RunningTask.takeSoonest p.running with
  | none => none
  | some (r, rest) =>
    if cancel.all (r.finish ≤ ·) then
      some { p with now := r.finish, running := rest, ended := r.ended :: p.ended }
    else none

/-- The run is cancelled, which ends one more task: a running one, or else a waiting one. -/
def cancel? (cancel : Option Duration) (p : Phase) : Option Phase :=
  match cancel, p.running, p.waiting with
  | none, _, _ => none
  | some time, r :: rest, _ =>
    some { p with now := time, running := rest, ended := r.stopped time :: p.ended }
  | some time, [], t :: rest =>
    some { p with now := time, waiting := rest, ended := t.prevented time :: p.ended }
  | some _, [], [] => none

/-- What happens next, if anything does. -/
def next? (slots : Nat) (cancel : Option Duration) (p : Phase) : Option Phase :=
  (p.grant? slots cancel).or ((p.complete? cancel).or (p.cancel? cancel))

/-- What happens in so many steps. -/
def steps (slots : Nat) (cancel : Option Duration) : Nat → Phase → Phase
  | 0, p => p
  | count + 1, p =>
    match p.next? slots cancel with
    | none => p
    | some q => steps slots cancel count q

/-- The most steps that are left: a waiting task starts and ends, and a running one ends. -/
def work (p : Phase) : Nat := 2 * p.waiting.length + p.running.length

/-- The phase when nothing is left to happen. -/
def run (slots : Nat) (cancel : Option Duration) (p : Phase) : Phase :=
  p.steps slots cancel p.work

end Phase

/-- Puts results at their places. -/
def place (results : List (Option BucketResult)) (deliveries : List (Nat × BucketResult)) :
    List (Option BucketResult) :=
  deliveries.foldl (fun results d => results.set d.1 (some d.2)) results

/-- The result of a bucket whose task died, made at some time. -/
def lostResult (planned : PlannedBucket) (now : Duration) : BucketResult :=
  ⟨planned.bucket.name, planned.profile.name, planned.tests.length, .failed none abortedReason,
    now, 0⟩

/-- The results of some buckets, whose tasks have ended in a given order, the last at `now`. -/
def gather (planned : List PlannedBucket) (ended : List EndedTask) (now : Duration) :
    List BucketResult :=
  let results := place (planned.map fun _ => none) (ended.filterMap EndedTask.delivery?)
  (results.zip planned).map fun (result, planned) => result.getD (lostResult planned now)

@[simp]
theorem length_place (results : List (Option BucketResult))
    (deliveries : List (Nat × BucketResult)) :
    (place results deliveries).length = results.length := by
  induction deliveries generalizing results with
  | nil => rfl
  | cons d deliveries ih => exact (ih (results.set d.1 (some d.2))).trans List.length_set

/-- There is one result for each bucket. -/
theorem length_gather (planned : List PlannedBucket) (ended : List EndedTask) (now : Duration) :
    (gather planned ended now).length = planned.length := by
  simp [gather]

end CiPlan
