import CiPlan.Proofs.Execute
import CiPlan.Proofs.Fair
import CiPlan.Proofs.Validate
import Mathlib.Data.List.MinMax
import Mathlib.Order.Nat

/-!
# When buckets start

The bucket phase of a run that is not cancelled is fair list scheduling.  `Schedules` says so of the
course of a run, in terms of the timeline that gives each bucket its start, and bounds the starts and
the length of the whole phase by the largest time limit:

* `Attempt.delay_within_le`, `delay_le_longestTimeout` — no task takes longer than its limit;
* `isLeast_start` — it is enough to compare a start with the one before;
* `finish_le`, `bucketPhase_le` — the waves of buckets bound the bucket phase;
* `longestTimeout_le` — the limits of an accepted plan are at most a day;
* `run_schedules` — all of it together.
-/

namespace CiPlan

/-- A task ends within its limit, by itself or since the limit is reached. -/
theorem Attempt.delay_within_le (limitSecs : UInt64) (a : Attempt) :
    (a.within limitSecs).delay ≤ .ofSecs limitSecs := by
  unfold within
  split
  · assumption
  · exact Nat.le_refl _

namespace Matrix

/-- Every bucket that passed the check has a time limit of at most a day, if it has one. -/
private theorem timeoutSecs_le_of_checkFrom {buckets : List Bucket} :
    ∀ {seen : List String}, checkFrom seen buckets = .ok () →
      ∀ b ∈ buckets, ∀ secs ∈ b.timeoutSecs, secs ≤ maxBucketTimeoutSecs := by
  induction buckets with
  | nil => simp
  | cons b buckets ih =>
      intro seen h
      rw [checkFrom] at h
      split at h
      · cases h
      · next hfault =>
        split at h
        · cases h
        · refine List.forall_mem_cons.mpr ⟨?_, ih h⟩
          intro secs hsecs
          by_contra hlarge
          have hbad : b.timeoutSecs.filter (!Bucket.isTimeout ·) = some secs := by
            rw [Option.mem_def.mp hsecs]
            simp [Bucket.isTimeout, hlarge]
          simp only [Bucket.fault?, hbad] at hfault
          split at hfault
          · cases hfault
          · split at hfault <;> cases hfault

/-- A matrix has a bounded number of buckets. -/
theorem length_le (m : Matrix) : m.buckets.length ≤ maxBuckets := by
  have hchecked := m.checked
  unfold check at hchecked
  split at hchecked
  · cases hchecked
  · next hfew => exact Nat.le_of_not_lt hfew

theorem timeoutSecs_le (m : Matrix) :
    ∀ b ∈ m.buckets, ∀ secs ∈ b.timeoutSecs, secs ≤ maxBucketTimeoutSecs := by
  have hchecked := m.checked
  unfold check at hchecked
  split at hchecked
  · cases hchecked
  · exact timeoutSecs_le_of_checkFrom hchecked

end Matrix

namespace Orchestrator

/-- The largest time limit of the buckets of a plan. -/
def longestTimeout (o : Orchestrator) (plan : Plan) : Duration :=
  (plan.buckets.map fun b => Duration.ofSecs (b.bucket.effectiveTimeout o.defaultTimeoutSecs)).foldr
    max 0

/-- The starts of a timeline are those of fair list scheduling, and a run has kept to them. -/
structure Schedules (o : Orchestrator) (plan : Plan) (course : RunCourse)
    (timeline : List RunningTask) : Prop where
  /-- The timeline has the task of each bucket, in the order of the plan. -/
  tasks : timeline.map (·.task) = plan.buckets.zipIdx.map fun (planned, index) =>
    ⟨index, planned, o.attempt plan.level planned⟩
  ended : course.ended.Perm (timeline.map RunningTask.ended)
  slots : ∀ time, timeline.countP (·.runsAt time) ≤ o.slots
  ordered : timeline.Pairwise (·.start ≤ ·.start)
  /-- A bucket starts at the earliest time, not before the bucket before it, at which not all slots
  are taken by the buckets before it. -/
  earliest : ∀ j (hj : j < timeline.length),
    IsLeast {time | (∀ r ∈ (timeline.take j).getLast?, r.start ≤ time) ∧
      (timeline.take j).countP (·.runsAt time) < o.slots}
      timeline[j].start
  start_le : ∀ j (hj : j < timeline.length),
    timeline[j].start ≤ j / o.slots * o.longestTimeout plan
  /-- The leak check starts when the bucket phase is over. -/
  bucketPhase_le : course.bucketPhase ≤
    (plan.buckets.length + o.slots - 1) / o.slots * o.longestTimeout plan

/-! ## Time limits -/

variable {o : Orchestrator} {plan : Plan}

theorem le_longestTimeout {b : PlannedBucket} (hb : b ∈ plan.buckets) :
    Duration.ofSecs (b.bucket.effectiveTimeout o.defaultTimeoutSecs) ≤ o.longestTimeout plan :=
  List.le_max_of_le (List.mem_map_of_mem hb) (Nat.le_refl _)

theorem longestTimeout_le {bound : Duration}
    (h : ∀ b ∈ plan.buckets,
      Duration.ofSecs (b.bucket.effectiveTimeout o.defaultTimeoutSecs) ≤ bound) :
    o.longestTimeout plan ≤ bound := by
  refine List.max_le_of_forall_le _ _ fun limit hlimit => ?_
  obtain ⟨b, hb, rfl⟩ := List.mem_map.mp hlimit
  exact h b hb

/-- No task of a plan takes longer than the largest time limit. -/
theorem delay_le_longestTimeout {timeline : List RunningTask}
    (htasks : timeline.map (·.task) = o.tasks plan) :
    ∀ r ∈ timeline, r.task.attempt.delay ≤ o.longestTimeout plan := by
  intro r hr
  have htask : r.task ∈ o.tasks plan := htasks ▸ List.mem_map_of_mem hr
  obtain ⟨⟨b, index⟩, hmem, heq⟩ := List.mem_map.mp htask
  have hb : b ∈ plan.buckets := List.fst_mem_of_mem_zipIdx hmem
  rw [← heq]
  exact Nat.le_trans (Attempt.delay_within_le ..) (le_longestTimeout hb)

/-- The time limits of an accepted plan are at most a day. -/
theorem longestTimeout_le_of_plan (hdefault : o.defaultTimeoutSecs ≤ maxBucketTimeoutSecs)
    {planner : Planner} {trigger : TriggerEvent} (h : planner.plan trigger = .ok plan) :
    o.longestTimeout plan ≤ .ofSecs maxBucketTimeoutSecs := by
  refine longestTimeout_le fun b hb => ofSecs_le ?_
  have hmem : b.bucket ∈ planner.matrix.active plan.level := by
    rw [← (Planner.plans_of_plan h).1]
    exact List.mem_map_of_mem hb
  have hlimit := planner.matrix.timeoutSecs_le b.bucket (List.mem_of_mem_filter hmem)
  unfold Bucket.effectiveTimeout
  cases hsecs : b.bucket.timeoutSecs with
  | none => exact hdefault
  | some secs => exact hlimit secs hsecs

theorem length_buckets_le_of_plan {planner : Planner} {trigger : TriggerEvent}
    (h : planner.plan trigger = .ok plan) : plan.buckets.length ≤ maxBuckets := by
  rw [← List.length_map (·.bucket), (Planner.plans_of_plan h).1]
  exact Nat.le_trans (List.length_filter_le ..) planner.matrix.length_le

/-! ## Fair phases -/

/-- On a timeline, what does not come before the last start comes before none. -/
theorem isLeast_start {slots : Nat} {timeline : List RunningTask} (h : IsTimeline slots timeline)
    {j : Nat} (hj : j < timeline.length) :
    IsLeast {time | (∀ r ∈ (timeline.take j).getLast?, r.start ≤ time) ∧
      (timeline.take j).countP (·.runsAt time) < slots} timeline[j].start := by
  have hfront : IsTimeline slots (timeline.take j) := by
    rw [← List.take_append_drop j timeline] at h
    exact h.of_append
  have hstarts : ∀ time : Duration, (∀ r ∈ (timeline.take j).getLast?, r.start ≤ time) ↔
      ∀ r ∈ timeline.take j, r.start ≤ time := by
    intro time
    constructor
    · intro hlast r hr
      rcases List.eq_nil_or_concat' (timeline.take j) with hnil | ⟨init, last, hsplit⟩
      · simp [hnil] at hr
      · rw [hsplit] at hfront hlast hr
        have hle : last.start ≤ time := hlast last (by simp)
        have horder := (List.pairwise_append.mp hfront.pairwise_start).2.2
        rcases List.mem_append.mp hr with hr | hr
        · exact Nat.le_trans (horder r hr last List.mem_cons_self) hle
        · rwa [List.mem_singleton.mp hr]
    · intro hall r hr
      exact hall r (List.mem_of_getLast? hr)
  simp only [hstarts]
  exact h.isLeast_getElem hj

/-- The waves of buckets bound the ends of tasks. -/
theorem finish_le {timeline : List RunningTask} (h : IsTimeline o.slots timeline)
    (htasks : timeline.map (·.task) = o.tasks plan) {r : RunningTask} (hr : r ∈ timeline) :
    r.finish ≤ (plan.buckets.length + o.slots - 1) / o.slots * o.longestTimeout plan := by
  have hdelay := delay_le_longestTimeout htasks
  have hlength : timeline.length = plan.buckets.length := by
    rw [← List.length_map (·.task), htasks, tasks, List.length_map, List.length_zipIdx]
  obtain ⟨j, hj, rfl⟩ := List.getElem_of_mem hr
  have hstart := h.start_le o.slots_pos hdelay hj
  have hwave : j / o.slots + 1 ≤ (plan.buckets.length + o.slots - 1) / o.slots := by
    rw [← Nat.add_div_right j o.slots_pos]
    exact Nat.div_le_div_right (by omega)
  calc timeline[j].finish
      ≤ j / o.slots * o.longestTimeout plan + o.longestTimeout plan :=
        Nat.add_le_add hstart (hdelay _ (List.getElem_mem hj))
    _ = (j / o.slots + 1) * o.longestTimeout plan := (Nat.succ_mul ..).symm
    _ ≤ (plan.buckets.length + o.slots - 1) / o.slots * o.longestTimeout plan :=
        Nat.mul_le_mul_right _ hwave

/-- A fair phase that is over has kept to a timeline. -/
theorem exists_schedules {phase : Phase}
    (hfair : Phase.FairReaches o.slots none (.start (o.tasks plan)) phase)
    (hover : phase.isOver = true) : ∃ timeline, o.Schedules plan (o.conclude plan phase) timeline := by
  have hreaches := Phase.FairReaches.reaches hfair
  obtain ⟨timeline, hkeeps⟩ := Phase.FairReaches.exists_timeline hfair
  obtain ⟨htasks, hended⟩ := hkeeps.ended_perm hover hreaches.undisturbed
  have hdelay := delay_le_longestTimeout htasks
  refine ⟨timeline, htasks, ?ended, hkeeps.isTimeline.countP_runsAt_le,
    hkeeps.isTimeline.pairwise_start, fun j hj => isLeast_start hkeeps.isTimeline hj,
    fun j hj => hkeeps.isTimeline.start_le o.slots_pos hdelay hj, ?bucketPhase⟩
  case ended =>
    rw [ended_conclude]
    exact (List.reverse_perm _).trans hended
  case bucketPhase =>
    rw [bucketPhase_conclude]
    rcases hreaches.now_eq with hzero | ⟨e, he, hfinish⟩
    · rw [hzero]
      exact Nat.zero_le _
    · obtain ⟨r, hr, rfl⟩ := List.mem_map.mp (hended.mem_iff.mp he)
      rw [← hfinish]
      exact finish_le hkeeps.isTimeline htasks hr

/-- The buckets of an accepted plan start as fair list scheduling says, whichever of the tasks that
end at one time comes first, and the largest time limit bounds how long they take. -/
theorem run_schedules [Formats] {config : Config} (hvalid : config.validate = .ok ())
    {executor : Executor} {client : StatusClient} {o : Orchestrator}
    (ho : ofConfig executor client config = .ok o) {planner : Planner} {trigger : TriggerEvent}
    {plan : Plan} (hplan : planner.plan trigger = .ok plan) :
    o.slots = max 1 config.runner.maxParallel.toNat ∧ plan.buckets.length ≤ 256 ∧
      o.longestTimeout plan ≤ .ofSecs 86400 ∧
      (∃ timeline, o.Schedules plan (o.execute none plan) timeline) ∧
      ∀ phase, Phase.FairReaches o.slots none (.start (o.tasks plan)) phase →
        phase.running.length ≤ o.slots ∧
          (phase.isOver = true → ∃ timeline, o.Schedules plan (o.conclude plan phase) timeline) := by
  have hdefault : o.defaultTimeoutSecs ≤ maxBucketTimeoutSecs := by
    rw [(ofConfig_eq_ok ho).2.2.2.2]
    exact Config.defaultTimeoutSecs_le_of_validate hvalid
  refine ⟨slots_of_ofConfig ho, length_buckets_le_of_plan hplan,
    longestTimeout_le_of_plan hdefault hplan,
    exists_schedules (Phase.fairReaches_run ..) (Phase.isOver_run o.slots_pos _), ?_⟩
  intro phase hfair
  exact ⟨(Phase.FairReaches.reaches hfair).invariant.slots, exists_schedules hfair⟩

/-- The configuration in which one bucket runs at a time. -/
def serialConfig : Config :=
  { Config.default with runner := { RunnerConfig.default with maxParallel := 1 } }

theorem validate_serialConfig : serialConfig.validate = .ok () := by decide +kernel

theorem isSome_ofConfig_serialConfig :
    (ofConfig mixed.executor LeakChecker.recoveringClient serialConfig).toOption.isSome = true := by
  decide +kernel

theorem run_schedules_serialConfig : ∃ o, serialConfig.validate = .ok () ∧
    ofConfig mixed.executor LeakChecker.recoveringClient serialConfig = .ok o ∧
      twoBucketPlanner.plan .schedule = .ok twoBucketPlan ∧ o.slots = 1 ∧
      (∃ timeline, o.Schedules twoBucketPlan (o.execute none twoBucketPlan) timeline) ∧
      Phase.FairReaches o.slots none (.start (o.tasks twoBucketPlan))
        (o.runBuckets none twoBucketPlan) ∧
      (o.runBuckets none twoBucketPlan).isOver = true ∧
      ∃ timeline, o.Schedules twoBucketPlan
        (o.conclude twoBucketPlan (o.runBuckets none twoBucketPlan)) timeline := by
  have hsome := isSome_ofConfig_serialConfig
  cases ho : ofConfig mixed.executor LeakChecker.recoveringClient serialConfig with
  | error e =>
      rw [ho] at hsome
      cases hsome
  | ok o =>
      have hfair := Phase.fairReaches_run (o.tasks twoBucketPlan) o.slots none
      have hover : (o.runBuckets none twoBucketPlan).isOver = true :=
        Phase.isOver_run o.slots_pos (.start (o.tasks twoBucketPlan))
      obtain ⟨hslots, -, -, hexecute, hphases⟩ :=
        run_schedules validate_serialConfig ho plan_twoBucketPlanner
      exact ⟨o, validate_serialConfig, rfl, plan_twoBucketPlanner, hslots, hexecute, hfair, hover,
        (hphases _ hfair).2 hover⟩

end Orchestrator

end CiPlan
