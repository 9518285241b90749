import CiPlan.Proofs.Gather
import CiPlan.Proofs.Partition
import CiPlan.Proofs.Phase
import CiPlan.Proofs.Poll
import CiPlan.Run.Orchestrator

/-!
# Carrying out a plan

`CarriesOut` says what the course of a run owes to its plan: each bucket ends once and gets the
result of its own task at its own place, and the leak check comes after all buckets, whatever became
of them.  `execute_carriesOut` proves it of every run, and not only for the order of events that
`Orchestrator.execute` goes through.
-/

namespace CiPlan

namespace Orchestrator

/-- A run has carried out a plan. -/
structure CarriesOut (o : Orchestrator) (cancel : Option Duration) (plan : Plan)
    (course : RunCourse) : Prop where
  trigger : course.report.trigger = plan.trigger
  /-- Each bucket has one task, which has ended once. -/
  once : (course.ended.map (·.task)).Perm (plan.buckets.zipIdx.map fun (planned, index) =>
    ⟨index, planned, o.attempt plan.level planned⟩)
  ends : ∀ e ∈ course.ended, e.IsEnd cancel
  /-- The results stand in the order of the plan, and each comes from the task of its bucket. -/
  results : List.Forall₂ (fun (planned, index) result => ∃ e ∈ course.ended,
      e.task = ⟨index, planned, o.attempt plan.level planned⟩ ∧
      result.bucket = planned.bucket.name ∧ result.profile = planned.profile.name ∧
      result.tests = planned.tests.length ∧
      result.outcome = e.outcome.getD (.failed none "bucket task aborted"))
    plan.buckets.zipIdx course.report.buckets
  /-- A task is counted under the label of its outcome, unless it died. -/
  counted : ∀ label,
    course.metrics.count (Metric.increment .bucketsTotal [("result", label)]) =
      course.ended.countP fun e => e.outcome.any (·.label == label)
  notScheduled_iff : course.report.leakCheck = .notScheduled ↔ plan.level = .local
  disabled_iff : course.report.leakCheck = .disabled ↔
    plan.level ≠ .local ∧ o.leakCheckEnabled = false
  /-- Otherwise the targets of the plan are checked. -/
  completed : plan.level ≠ .local → o.leakCheckEnabled = true →
    course.report.leakCheck = .completed (o.checker.check plan.leakCheckTargets).report ∧
      course.queries = (o.checker.check plan.leakCheckTargets).queries
  /-- The check takes place at most once, and without it nothing is asked. -/
  checks : course.metrics.countP (·.metric == .leakCheckDuration) =
    if course.report.leakCheck.report?.isSome then 1 else 0
  unasked : course.report.leakCheck.report? = none → course.queries = []
  /-- The check begins at the end of the bucket phase. -/
  begins : course.leakCheckStart =
    if course.report.leakCheck.report?.isSome then some course.bucketPhase else none
  /-- It does not begin before the last bucket has ended. -/
  waits : ∀ start, course.leakCheckStart = some start → ∀ e ∈ course.ended, e.finish ≤ start
  /-- The run takes as long as its buckets and the check after them. -/
  elapsed : course.elapsed = course.leakCheckStart.elim course.bucketPhase fun start =>
    start + (o.checker.check plan.leakCheckTargets).elapsed
  /-- Nothing is asked before the last bucket has ended. -/
  barrier : ∀ q ∈ course.queries, ∀ e ∈ course.ended, e.finish ≤ course.bucketPhase + q.start

section Conclude

variable (o : Orchestrator) (plan : Plan) (phase : Phase)

/-- What happens after the buckets. -/
theorem conclude_cases :
    (plan.level = .local ∧ o.conclude plan phase = .unchecked plan phase .notScheduled) ∨
    (plan.level ≠ .local ∧ o.leakCheckEnabled = false ∧
      o.conclude plan phase = .unchecked plan phase .disabled) ∨
    (plan.level ≠ .local ∧ o.leakCheckEnabled = true ∧
      o.conclude plan phase = .checked plan phase (o.checker.check plan.leakCheckTargets)) := by
  have hscheduled : plan.leakCheckScheduled = plan.level.provisionsCloud := rfl
  cases hlevel : plan.level with
  | «local» =>
      have hnot : plan.leakCheckScheduled = false := by rw [hscheduled, hlevel]; rfl
      exact .inl ⟨rfl, by simp [conclude, hnot]⟩
  | release =>
      have hyes : plan.leakCheckScheduled = true := by rw [hscheduled, hlevel]; rfl
      cases henabled : o.leakCheckEnabled with
      | false => exact .inr (.inl ⟨by simp, rfl, by simp [conclude, hyes, henabled]⟩)
      | true => exact .inr (.inr ⟨by simp, rfl, by simp [conclude, hyes, henabled]⟩)

variable {o plan} in
/-- A plan with a leak check has it checked, unless it is switched off. -/
theorem conclude_checked (hlevel : plan.level ≠ .local) (henabled : o.leakCheckEnabled = true) :
    o.conclude plan phase = .checked plan phase (o.checker.check plan.leakCheckTargets) := by
  rcases o.conclude_cases plan phase with ⟨hlocal, -⟩ | ⟨-, hoff, -⟩ | ⟨-, -, h⟩
  · exact absurd hlocal hlevel
  · rw [henabled] at hoff
    cases hoff
  · exact h

@[simp]
theorem trigger_conclude : (o.conclude plan phase).report.trigger = plan.trigger := by
  rcases o.conclude_cases plan phase with ⟨-, h⟩ | ⟨-, -, h⟩ | ⟨-, -, h⟩ <;> rw [h] <;> rfl

@[simp]
theorem buckets_conclude :
    (o.conclude plan phase).report.buckets =
      gather plan.buckets phase.ended.reverse phase.now := by
  rcases o.conclude_cases plan phase with ⟨-, h⟩ | ⟨-, -, h⟩ | ⟨-, -, h⟩ <;> rw [h] <;> rfl

@[simp]
theorem ended_conclude : (o.conclude plan phase).ended = phase.ended.reverse := by
  rcases o.conclude_cases plan phase with ⟨-, h⟩ | ⟨-, -, h⟩ | ⟨-, -, h⟩ <;> rw [h] <;> rfl

@[simp]
theorem bucketPhase_conclude : (o.conclude plan phase).bucketPhase = phase.now := by
  rcases o.conclude_cases plan phase with ⟨-, h⟩ | ⟨-, -, h⟩ | ⟨-, -, h⟩ <;> rw [h] <;> rfl

/-- A leak check begins when the bucket phase is over. -/
theorem leakCheckStart_conclude : (o.conclude plan phase).leakCheckStart =
    if (o.conclude plan phase).report.leakCheck.report?.isSome then some phase.now else none := by
  rcases o.conclude_cases plan phase with ⟨-, h⟩ | ⟨-, -, h⟩ | ⟨-, -, h⟩ <;> rw [h] <;> rfl

theorem elapsed_conclude : (o.conclude plan phase).elapsed =
    (o.conclude plan phase).leakCheckStart.elim phase.now fun start =>
      start + (o.checker.check plan.leakCheckTargets).elapsed := by
  rcases o.conclude_cases plan phase with ⟨-, h⟩ | ⟨-, -, h⟩ | ⟨-, -, h⟩ <;> rw [h] <;> rfl

end Conclude

/-! ## Metrics -/

/-- The leak check reports nothing about buckets, and its duration once. -/
theorem metrics_course (course : LeakChecker.Course) (label : String) :
    course.metrics.count (Metric.increment .bucketsTotal [("result", label)]) = 0 ∧
      course.metrics.countP (·.metric == .leakCheckDuration) = 1 := by
  have hqueries : ∀ metric, metric ≠ .leakCheckQueriesTotal →
      (course.queries.map fun q => Metric.increment .leakCheckQueriesTotal
        [("profile", q.profile.name), ("result", if q.answer.isOk then "ok" else "error")]).countP
          (·.metric == metric) = 0 := by
    intro metric hne
    rw [List.countP_eq_zero]
    intro sample hsample
    obtain ⟨q, -, rfl⟩ := List.mem_map.mp hsample
    simpa [Metric.increment] using Ne.symm hne
  constructor
  · rw [List.count_eq_zero]
    intro hmem
    rcases List.mem_append.mp hmem with hmem | hmem
    · have hnone := List.countP_eq_zero.mp (hqueries .bucketsTotal (by decide)) _ hmem
      simp [Metric.increment] at hnone
    · simp [Metric.increment, Metric.record, Metric.set] at hmem
  · rw [LeakChecker.Course.metrics, List.countP_append, hqueries _ (by decide)]
    rfl

/-- The buckets report nothing about the leak check. -/
theorem countP_leakCheckDuration (ended : List EndedTask) :
    (ended.flatMap EndedTask.metrics).countP (·.metric == .leakCheckDuration) = 0 := by
  rw [List.countP_eq_zero]
  intro sample hsample
  obtain ⟨e, -, he⟩ := List.mem_flatMap.mp hsample
  rcases metric_of_mem_metrics he with h | h <;> simp [h]

/-! ## All runs -/

section Runs

variable (o : Orchestrator) (cancel : Option Duration) (plan : Plan)

theorem index_tasks : (o.tasks plan).map (·.index) = List.range' 0 plan.buckets.length := by
  rw [tasks, List.map_map]
  exact List.zipIdx_map_snd ..

variable {o cancel plan}

/-- The results of a phase that is over, in the order of the plan. -/
theorem forall₂_gather {phase : Phase} (hperm : (phase.ended.map (·.task)).Perm (o.tasks plan)) :
    List.Forall₂ (fun (planned, index) result => ∃ e ∈ phase.ended,
        e.task = ⟨index, planned, o.attempt plan.level planned⟩ ∧ result = e.final phase.now)
      plan.buckets.zipIdx (gather plan.buckets phase.ended.reverse phase.now) := by
  have hnodup : (phase.ended.reverse.map (·.task.index)).Nodup := by
    have hindex : (phase.ended.reverse.map (·.task.index)).Perm ((o.tasks plan).map (·.index)) := by
      rw [List.map_reverse]
      refine (List.reverse_perm _).trans ?_
      have h := hperm.map (·.index)
      rw [List.map_map] at h
      exact h
    rw [hindex.nodup_iff, index_tasks]
    exact List.nodup_range'
  rw [List.forall₂_iff_get]
  refine ⟨by rw [List.length_zipIdx, length_gather], ?_⟩
  intro i hi hi'
  have hlt : i < plan.buckets.length := by
    rw [List.length_zipIdx] at hi
    exact hi
  have hzip : plan.buckets.zipIdx.get ⟨i, hi⟩ = (plan.buckets[i], i) := by
    simp
  have htask : (⟨i, plan.buckets[i], o.attempt plan.level plan.buckets[i]⟩ : BucketTask) ∈
      phase.ended.map (·.task) := by
    rw [hperm.mem_iff, tasks, List.mem_map]
    exact ⟨plan.buckets.zipIdx.get ⟨i, hi⟩, List.get_mem .., by rw [hzip]⟩
  obtain ⟨e, he, heq⟩ := List.mem_map.mp htask
  have hindex : e.task.index = i := by rw [heq]
  have hplanned : plan.buckets[e.task.index]? = some e.task.planned := by
    rw [heq]
    exact List.getElem?_eq_getElem hlt
  have hresult := getElem?_gather hnodup (List.mem_reverse.mpr he) hplanned phase.now
  rw [hindex, List.getElem?_eq_getElem hi'] at hresult
  rw [hzip]
  exact ⟨e, he, heq, Option.some.inj hresult⟩

/-- The result at a place of the plan is that of the task of the bucket there. -/
theorem exists_final (hinv : phase.Invariant (o.tasks plan) o.slots cancel)
    (hover : phase.isOver = true) {j : Nat} {b : PlannedBucket} (hb : plan.buckets[j]? = some b) :
    ∃ e ∈ phase.ended, e.task = ⟨j, b, o.attempt plan.level b⟩ ∧
      (o.conclude plan phase).report.buckets[j]? = some (e.final phase.now) := by
  have hresults := forall₂_gather (hinv.ended_perm hover)
  rw [List.forall₂_iff_get] at hresults
  obtain ⟨hlength, hget⟩ := hresults
  obtain ⟨hj, rfl⟩ := List.getElem?_eq_some_iff.mp hb
  have hjzip : j < plan.buckets.zipIdx.length := by rwa [List.length_zipIdx]
  have hjgather : j < (gather plan.buckets phase.ended.reverse phase.now).length :=
    hlength ▸ hjzip
  obtain ⟨e, he, htask, hresult⟩ := hget j hjzip hjgather
  refine ⟨e, he, by simpa using htask, ?_⟩
  rw [buckets_conclude, List.getElem?_eq_getElem hjgather]
  exact congrArg some hresult

/-- However a bucket phase has gone, what is concluded from it carries out the plan. -/
theorem conclude_carriesOut {phase : Phase}
    (hinv : phase.Invariant (o.tasks plan) o.slots cancel) (hover : phase.isOver = true) :
    o.CarriesOut cancel plan (o.conclude plan phase) := by
  have hperm := hinv.ended_perm hover
  have hcourse := metrics_course (o.checker.check plan.leakCheckTargets)
  refine ⟨o.trigger_conclude plan phase, ?once, ?ends, ?results, ?counted, ?notScheduled, ?disabled,
    ?completed, ?checks, ?unasked, ?begins, ?waits, ?elapsed, ?barrier⟩
  case once =>
    rw [ended_conclude, List.map_reverse]
    exact (List.reverse_perm _).trans hperm
  case ends =>
    intro e he
    rw [ended_conclude, List.mem_reverse] at he
    exact (hinv.ended e he).2
  case results =>
    rw [buckets_conclude, ended_conclude]
    refine (forall₂_gather hperm).imp ?_
    rintro ⟨planned, index⟩ result ⟨e, he, htask, rfl⟩
    obtain ⟨hbucket, hprofile, htests, houtcome, -⟩ := e.final_fields phase.now
    rw [htask] at hbucket hprofile htests
    exact ⟨e, List.mem_reverse.mpr he, htask, hbucket, hprofile, htests, houtcome⟩
  case counted =>
    intro label
    rw [ended_conclude, ← count_metrics]
    rcases o.conclude_cases plan phase with ⟨-, h⟩ | ⟨-, -, h⟩ | ⟨-, -, h⟩
    · rw [h]
      rfl
    · rw [h]
      rfl
    · have hnone := (hcourse label).1
      rw [h, RunCourse.checked, List.count_append, hnone, Nat.add_zero]
      rfl
  case notScheduled =>
    rcases o.conclude_cases plan phase with ⟨hlevel, h⟩ | ⟨hlevel, -, h⟩ | ⟨hlevel, -, h⟩ <;>
      simp [hlevel, h, RunCourse.unchecked, RunCourse.checked]
  case disabled =>
    rcases o.conclude_cases plan phase with
      ⟨hlevel, h⟩ | ⟨hlevel, henabled, h⟩ | ⟨hlevel, henabled, h⟩
    · simp [hlevel, h, RunCourse.unchecked]
    · simp [hlevel, henabled, h, RunCourse.unchecked]
    · simp [henabled, h, RunCourse.unchecked, RunCourse.checked]
  case completed =>
    intro hnot hon
    rw [conclude_checked phase hnot hon]
    exact ⟨rfl, rfl⟩
  case checks =>
    rcases o.conclude_cases plan phase with ⟨-, h⟩ | ⟨-, -, h⟩ | ⟨-, -, h⟩
    · rw [h]
      exact countP_leakCheckDuration _
    · rw [h]
      exact countP_leakCheckDuration _
    · rw [h, RunCourse.checked, List.countP_append, (hcourse "").2]
      exact congrArg (· + 1) (countP_leakCheckDuration _)
  case unasked =>
    intro hnone
    rcases o.conclude_cases plan phase with ⟨-, h⟩ | ⟨-, -, h⟩ | ⟨-, -, h⟩
    · rw [h]
      rfl
    · rw [h]
      rfl
    · rw [h] at hnone
      cases hnone
  case begins =>
    rw [leakCheckStart_conclude, bucketPhase_conclude]
  case waits =>
    intro start hstart e he
    rw [ended_conclude, List.mem_reverse] at he
    rw [leakCheckStart_conclude, Option.ite_none_right_eq_some] at hstart
    rw [← Option.some.inj hstart.2]
    exact (hinv.ended e he).1
  case elapsed =>
    rw [elapsed_conclude, bucketPhase_conclude]
  case barrier =>
    intro q _ e he
    rw [ended_conclude, List.mem_reverse] at he
    rw [bucketPhase_conclude]
    exact Nat.le_trans (hinv.ended e he).1 (Nat.le_add_right ..)

/-- Carrying out a plan is one of the orders in which its bucket phase may go. -/
theorem execute_eq_conclude (o : Orchestrator) (cancel : Option Duration) (plan : Plan) :
    ∃ phase, Phase.Reaches o.slots cancel (.start (o.tasks plan)) phase ∧ phase.isOver = true ∧
      o.execute cancel plan = o.conclude plan phase :=
  ⟨o.runBuckets cancel plan, Phase.reaches_run o.slots_pos _, Phase.isOver_run o.slots_pos _, rfl⟩

/-- Every run carries out its plan: the run in the order of `execute`, and every run in which waiting
tasks get slots, and tasks end, in another order.  None of them gets stuck or goes on forever. -/
theorem execute_carriesOut (o : Orchestrator) (cancel : Option Duration) (plan : Plan) :
    o.CarriesOut cancel plan (o.execute cancel plan) ∧
      ∀ phase, Phase.Reaches o.slots cancel (.start (o.tasks plan)) phase →
        (phase.isOver = true → o.CarriesOut cancel plan (o.conclude plan phase)) ∧
        (phase.isOver = false → ∃ next, phase.Step o.slots cancel next) ∧
        ∀ next, phase.Step o.slots cancel next → next.work < phase.work := by
  constructor
  · obtain ⟨phase, hreaches, hover, hexecute⟩ := execute_eq_conclude o cancel plan
    rw [hexecute]
    exact conclude_carriesOut hreaches.invariant hover
  · intro phase hreaches
    exact ⟨conclude_carriesOut hreaches.invariant, Phase.exists_step o.slots_pos,
      fun next hstep => hstep.work_lt⟩

end Runs

/-! ## Configured runs -/

/-- The orchestrator of a configuration does what its executor and client do, with the configured
settings. -/
theorem ofConfig_eq_ok [Formats] {executor : Executor} {client : StatusClient} {config : Config}
    {o : Orchestrator} (h : ofConfig executor client config = .ok o) :
    o.executor = executor ∧ o.checker.client = client ∧
      o.checker.policy = .ofConfig config.leakCheck ∧
      o.leakCheckEnabled = config.leakCheck.enabled ∧
      o.defaultTimeoutSecs = config.runner.defaultTimeoutSecs := by
  obtain ⟨checker, hchecker, heq⟩ := bind_eq_ok.mp h
  obtain ⟨parser, -, hparts⟩ := bind_eq_ok.mp (mapError_eq_ok.mp hchecker)
  cases hparts
  cases heq
  exact ⟨rfl, rfl, rfl, rfl, rfl⟩

/-- A configured run has the configured slots, and at least one. -/
theorem slots_of_ofConfig [Formats] {executor : Executor} {client : StatusClient} {config : Config}
    {o : Orchestrator} (h : ofConfig executor client config = .ok o) :
    o.slots = max 1 config.runner.maxParallel.toNat := by
  obtain ⟨checker, -, heq⟩ := bind_eq_ok.mp h
  cases heq
  rfl

/-! ## A run of two buckets -/

/-- An orchestrator under which one bucket succeeds and the task of any other dies. -/
def mixed : Orchestrator where
  executor planned _ :=
    if planned.bucket.name = "plain-tests" then ⟨.outcome .succeeded, .ofSecs 60⟩
    else ⟨.aborted, .ofSecs 10⟩
  checker := ⟨LeakChecker.runningLines, .ofConfig .default, LeakChecker.recoveringClient⟩
  leakCheckEnabled := true
  slots := 2
  slots_pos := by decide
  defaultTimeoutSecs := 3600

/-- The tasks of the two buckets. -/
def plainTask : BucketTask :=
  ⟨0, ⟨Matrix.releaseBucket "plain-tests" Matrix.notCluster none "aws" 3600, awsProfile,
    ["test_config"]⟩, ⟨.outcome .succeeded, .ofSecs 60⟩⟩

@[inherit_doc plainTask]
def clusterTask : BucketTask :=
  ⟨1, ⟨Matrix.releaseBucket "cluster-tests" Matrix.plainCluster none "aws" 3600, awsProfile,
    ["test_cluster"]⟩, ⟨.aborted, .ofSecs 10⟩⟩

theorem tasks_mixed : mixed.tasks twoBucketPlan = [plainTask, clusterTask] := by rfl

/-- The end of a phase in which the second task of the plan got the first slot. -/
def overtaken : Phase where
  now := .ofSecs 60
  waiting := []
  running := []
  ended :=
    [⟨plainTask, some 0, .ofSecs 60, some .succeeded⟩, ⟨clusterTask, some 0, .ofSecs 10, none⟩]

theorem reaches_overtaken :
    Phase.Reaches 2 none (.start [plainTask, clusterTask]) overtaken := by
  have hgrant : (Phase.start [plainTask, clusterTask]).Step 2 none
      ⟨0, [plainTask], [⟨clusterTask, 0⟩], []⟩ :=
    .grant clusterTask [plainTask] (.swap ..) (by decide) (by simp)
  have hgrant' : Phase.Step 2 none ⟨0, [plainTask], [⟨clusterTask, 0⟩], []⟩
      ⟨0, [], [⟨clusterTask, 0⟩, ⟨plainTask, 0⟩], []⟩ :=
    .grant plainTask [] (.refl _) (by decide) (by simp)
  have hcomplete : Phase.Step 2 none ⟨0, [], [⟨clusterTask, 0⟩, ⟨plainTask, 0⟩], []⟩
      ⟨.ofSecs 10, [], [⟨plainTask, 0⟩], [⟨clusterTask, some 0, .ofSecs 10, none⟩]⟩ :=
    .complete ⟨clusterTask, 0⟩ [⟨plainTask, 0⟩] (.refl _) (by decide) (by simp)
  have hcomplete' : Phase.Step 2 none
      ⟨.ofSecs 10, [], [⟨plainTask, 0⟩], [⟨clusterTask, some 0, .ofSecs 10, none⟩]⟩ overtaken :=
    .complete ⟨plainTask, 0⟩ [] (.refl _) (by simp) (by simp)
  exact .head hgrant (.head hgrant' (.head hcomplete (.single hcomplete')))

theorem execute_carriesOut_mixed :
    (Phase.Reaches mixed.slots none (.start (mixed.tasks twoBucketPlan)) overtaken ∧
      overtaken.isOver = true ∧
      mixed.CarriesOut none twoBucketPlan (mixed.conclude twoBucketPlan overtaken)) ∧
    (Phase.start (mixed.tasks twoBucketPlan)).isOver = false ∧
      ∃ next, (Phase.start (mixed.tasks twoBucketPlan)).Step mixed.slots none next ∧
        next.work < (Phase.start (mixed.tasks twoBucketPlan)).work := by
  have hreaches : Phase.Reaches mixed.slots none (.start (mixed.tasks twoBucketPlan)) overtaken := by
    rw [tasks_mixed]
    exact reaches_overtaken
  have hover := (execute_carriesOut mixed none twoBucketPlan).2 overtaken hreaches
  have hstart :=
    (execute_carriesOut mixed none twoBucketPlan).2 (.start (mixed.tasks twoBucketPlan)) .refl
  have hnot : (Phase.start (mixed.tasks twoBucketPlan)).isOver = false := rfl
  obtain ⟨next, hnext⟩ := hstart.2.1 hnot
  exact ⟨⟨hreaches, rfl, hover.1 rfl⟩, hnot, next, hnext, hstart.2.2 next hnext⟩

end Orchestrator

end CiPlan
