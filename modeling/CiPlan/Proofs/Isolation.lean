import CiPlan.Proofs.Execute

/-!
# No bucket affects another

A run that is not cancelled reports for each bucket what follows from the bucket's own task and its
own time limit.  The slots, the order of events and the other buckets have no part in it:

* `RunningTask.reported_final` — a task that ends by itself is reported by what it does alone, and
  its start does not matter;
* `conclude_reported` — so the results of a run follow from its buckets one by one;
* `execute_isolated` — two runs that agree on the task of a bucket agree on its result.
-/

namespace CiPlan

/-- The outcome and the duration that follow from what a task does when nothing stops it. -/
def Attempt.reported (a : Attempt) : BucketOutcome × Duration :=
  match a.ending with
  | .outcome outcome => (outcome, a.delay)
  | .error reason => (.failed none reason.message, a.delay)
  | .aborted => (.failed none "bucket task aborted", 0)

/-- The same under a time limit, which a task may just reach. -/
def Attempt.reportedWithin (limitSecs : UInt64) (a : Attempt) : BucketOutcome × Duration :=
  if a.delay ≤ Duration.ofSecs limitSecs then a.reported
  else (.timedOut limitSecs, .ofSecs limitSecs)

theorem Attempt.reported_within (limitSecs : UInt64) (a : Attempt) :
    (a.within limitSecs).reported = a.reportedWithin limitSecs := by
  unfold within reportedWithin
  split <;> rfl

theorem RunningTask.reported_final (r : RunningTask) (now : Duration) :
    ((r.ended.final now).outcome, (r.ended.final now).duration) = r.task.attempt.reported := by
  have hduration : r.finish - r.start = r.task.attempt.delay := Nat.add_sub_cancel_left ..
  unfold EndedTask.final EndedTask.result? Attempt.reported ended
  cases r.task.attempt.ending with
  | outcome outcome =>
      simp [TaskEnd.outcome?, EndedTask.duration, EndedTask.startedAt, hduration]
  | error reason =>
      simp [TaskEnd.outcome?, EndedTask.duration, EndedTask.startedAt, hduration]
  | aborted => rfl

namespace Orchestrator

/-- What each bucket of a plan owes to its own task and its own time limit. -/
def reported (o : Orchestrator) (plan : Plan) : List (BucketOutcome × Duration) :=
  plan.buckets.map fun b =>
    (o.executor b plan.level).reportedWithin (b.bucket.effectiveTimeout o.defaultTimeoutSecs)

variable {o : Orchestrator} {plan : Plan} {phase : Phase}

/-- However the bucket phase has gone, each bucket is reported by itself. -/
theorem conclude_reported (hreaches : Phase.Reaches o.slots none (.start (o.tasks plan)) phase)
    (hover : phase.isOver = true) :
    (o.conclude plan phase).report.buckets.map (fun r => (r.outcome, r.duration)) =
      o.reported plan := by
  have hlength : (o.conclude plan phase).report.buckets.length = plan.buckets.length := by
    rw [buckets_conclude, length_gather]
  refine List.ext_getElem? fun j => ?_
  rw [List.getElem?_map, reported, List.getElem?_map]
  cases hb : plan.buckets[j]? with
  | none =>
      rw [List.getElem?_eq_none_iff, ← hlength, ← List.getElem?_eq_none_iff] at hb
      rw [hb]
      rfl
  | some b =>
      obtain ⟨e, he, htask, hresult⟩ := exists_final hreaches.invariant hover hb
      obtain ⟨r, rfl⟩ := hreaches.undisturbed e he
      have hattempt : r.task.attempt = o.attempt plan.level b := congrArg BucketTask.attempt htask
      rw [hresult, Option.map_some, Option.map_some, r.reported_final, hattempt, attempt,
        Executor.task, Attempt.reported_within]

/-- The outcome and the duration of a bucket follow from its own task and its own time limit: the
task counts when it ends within the limit, and otherwise the limit does.  So they are the same in
every other run in which the bucket has the same task and the same limit, whatever its slots, its
other tasks and the order of its events. -/
theorem execute_isolated (o : Orchestrator) (plan : Plan) :
    (o.execute none plan).report.buckets.map (fun r => (r.outcome, r.duration)) =
        o.reported plan ∧
      (∀ phase, Phase.Reaches o.slots none (.start (o.tasks plan)) phase → phase.isOver = true →
        (o.conclude plan phase).report.buckets.map (fun r => (r.outcome, r.duration)) =
          o.reported plan) ∧
      ∀ (other : Orchestrator) (j : Nat) (b : PlannedBucket), plan.buckets[j]? = some b →
        other.executor b plan.level = o.executor b plan.level →
        b.bucket.effectiveTimeout other.defaultTimeoutSecs =
          b.bucket.effectiveTimeout o.defaultTimeoutSecs →
        ∀ phase, Phase.Reaches o.slots none (.start (o.tasks plan)) phase → phase.isOver = true →
        ∀ phase', Phase.Reaches other.slots none (.start (other.tasks plan)) phase' →
          phase'.isOver = true →
        ((other.conclude plan phase').report.buckets[j]?.map fun r => (r.outcome, r.duration)) =
          ((o.conclude plan phase).report.buckets[j]?.map fun r => (r.outcome, r.duration)) := by
  refine ⟨?_, fun phase hreaches hover => conclude_reported hreaches hover, ?_⟩
  · obtain ⟨phase, hreaches, hover, hexecute⟩ := execute_eq_conclude o none plan
    rw [hexecute]
    exact conclude_reported hreaches hover
  · intro other j b hb htask hlimit phase hreaches hover phase' hreaches' hover'
    rw [← List.getElem?_map, ← List.getElem?_map, conclude_reported hreaches hover,
      conclude_reported hreaches' hover', reported, reported, List.getElem?_map,
      List.getElem?_map, hb, Option.map_some, Option.map_some, htask, hlimit]

/-- As `mixed`, with one slot and a second bucket that hangs. -/
def hanging : Orchestrator :=
  { mixed with
    executor := fun planned _ =>
      if planned.bucket.name = "plain-tests" then ⟨.outcome .succeeded, .ofSecs 60⟩
      else ⟨.outcome .succeeded, .ofSecs 100000⟩
    slots := 1
    slots_pos := Nat.zero_lt_one }

theorem reported_hanging : hanging.reported twoBucketPlan =
    [(.succeeded, .ofSecs 60), (.timedOut 3600, .ofSecs 3600)] := by rfl

theorem execute_isolated_hanging :
    twoBucketPlan.buckets[0]? = some plainTask.planned ∧
      hanging.executor plainTask.planned twoBucketPlan.level =
        mixed.executor plainTask.planned twoBucketPlan.level ∧
      Phase.Reaches mixed.slots none (.start (mixed.tasks twoBucketPlan)) overtaken ∧
      overtaken.isOver = true ∧
      Phase.Reaches hanging.slots none (.start (hanging.tasks twoBucketPlan))
        (hanging.runBuckets none twoBucketPlan) ∧
      (hanging.runBuckets none twoBucketPlan).isOver = true ∧
      (hanging.execute none twoBucketPlan).report.buckets.map (fun r => (r.outcome, r.duration)) =
        [(.succeeded, .ofSecs 60), (.timedOut 3600, .ofSecs 3600)] ∧
      ((hanging.conclude twoBucketPlan (hanging.runBuckets none twoBucketPlan)).report.buckets[0]?.map
          fun r => (r.outcome, r.duration)) =
        ((mixed.conclude twoBucketPlan overtaken).report.buckets[0]?.map
          fun r => (r.outcome, r.duration)) := by
  have hmixed : Phase.Reaches mixed.slots none (.start (mixed.tasks twoBucketPlan)) overtaken := by
    rw [tasks_mixed]
    exact reaches_overtaken
  have hreaches : Phase.Reaches hanging.slots none (.start (hanging.tasks twoBucketPlan))
      (hanging.runBuckets none twoBucketPlan) :=
    Phase.reaches_run hanging.slots_pos (.start (hanging.tasks twoBucketPlan))
  have hover : (hanging.runBuckets none twoBucketPlan).isOver = true :=
    Phase.isOver_run hanging.slots_pos (.start (hanging.tasks twoBucketPlan))
  have hresults := (execute_isolated hanging twoBucketPlan).1
  have hsame := (execute_isolated mixed twoBucketPlan).2.2 hanging 0 plainTask.planned rfl rfl rfl
    overtaken hmixed rfl _ hreaches hover
  exact ⟨rfl, rfl, hmixed, rfl, hreaches, hover, hresults.trans reported_hanging, hsame⟩

end Orchestrator

end CiPlan
