import CiPlan.Proofs.Execute
import CiPlan.Proofs.Fair

/-!
# What a cancellation touches

A run that is cancelled at some time is compared with the same run when it is not.  Both keep to a
timeline, and the timeline of the cancelled run is the front part of the other, so every task that
has started has the same start in both.  What is left to say is how the tasks end:

* `le_start_of_prevented` — a task that never started would not have started before the cancellation;
* `cutTo_of_task_eq` — a task either ends as it would have ended, or is stopped at that time, or is
  kept from starting;
* `now_eq_min` — the bucket phase is over as soon as either happens;
* `execute_spares` — so the cancellation touches only what is not finished.

The start of a bucket is the time at which it gets its slot, which its task keeps when it has ended.
It is also the start that is reported, unless the task died: nobody read the clock then, so what is
reported is the end of the bucket phase, and a cancellation moves that (`ReportsStart`).
-/

namespace CiPlan

/-- What a cancellation at some time makes of the end of a task. -/
inductive EndedTask.CutTo (time : Duration) : EndedTask → EndedTask → Prop
  | kept (r : RunningTask) (early : r.finish ≤ time) : CutTo time r.ended r.ended
  | stopped (r : RunningTask) (begun : r.start ≤ time) (late : time ≤ r.finish) :
      CutTo time r.ended (r.stopped time)
  | prevented (r : RunningTask) (late : time ≤ r.start) :
      CutTo time r.ended (r.task.prevented time)

theorem EndedTask.task_of_run? {e : EndedTask} {r : RunningTask} (h : e.run? = some r) :
    e.task = r.task := by
  obtain ⟨start, -, rfl⟩ := Option.map_eq_some_iff.mp h
  rfl

namespace Phase

section Compare

variable {tasks : List BucketTask} {slots : Nat} {time : Duration} {p q : Phase}
  {whole front : List RunningTask}

/-- The timeline of a run is the front part of that of a run that starts all tasks. -/
theorem KeepsTo.isPrefix (hq : q.KeepsTo tasks slots front) (hp : p.KeepsTo tasks slots whole)
    (htasks : whole.map (·.task) = tasks) : front <+: whole :=
  hq.isTimeline.isPrefix hp.isTimeline (htasks ▸ hq.front)

/-- The tasks that have had a slot are those of the timeline. -/
theorem KeepsTo.mem_iff (hq : q.KeepsTo tasks slots front) (hover : q.isOver = true)
    {r : RunningTask} : r ∈ front ↔ ∃ e ∈ q.ended, e.run? = some r := by
  rw [hq.started.mem_iff, started_eq hover, List.mem_filterMap]

/-- A task that was kept from starting would have started at the time of the cancellation or later. -/
theorem le_start_of_prevented (hreaches : Reaches slots (some time) (start tasks) q)
    (hq : q.KeepsTo tasks slots front) (hwhole : IsTimeline slots whole) (hfront : front <+: whole)
    {t : BucketTask} (ht : t.prevented time ∈ q.ended) {r : RunningTask} (hr : r ∈ whole)
    (hnot : r ∉ front) : time ≤ r.start := by
  obtain ⟨rest, rfl⟩ := hfront
  have hnow : q.now = time :=
    Nat.le_antisymm (hreaches.invariant.time time rfl) (hreaches.invariant.ended _ ht).1
  cases rest with
  | nil => exact absurd (by simpa using hr) hnot
  | cons next rest =>
      have hsplit : IsTimeline slots (front ++ [next] ++ rest) := by simpa using hwhole
      have hleast := hsplit.of_append.of_concat.2
      have hnext : time ≤ next.start := by
        by_contra hlt
        have hbefore : next.start < q.now := hnow ▸ Nat.lt_of_not_le hlt
        have hbusy := hq.busy (.inr ⟨_, ht, rfl⟩) next.start hbefore hleast.1.1
        have hfree := hleast.1.2
        omega
      have horder := (List.pairwise_append.mp hwhole.pairwise_start).2.1
      rcases List.mem_cons.mp ((List.mem_append.mp hr).resolve_left hnot) with rfl | hr
      · exact hnext
      · exact Nat.le_trans hnext ((List.pairwise_cons.mp horder).1 r hr)

/-- The end of a task in a cancelled run comes from its end in the run that is not. -/
theorem cutTo_of_task_eq (hnodup : tasks.Nodup) (hp : FairReaches slots none (start tasks) p)
    (hpover : p.isOver = true) (hq : FairReaches slots (some time) (start tasks) q)
    (hqover : q.isOver = true) {e u : EndedTask} (he : e ∈ p.ended) (hu : u ∈ q.ended)
    (htask : u.task = e.task) : e.CutTo time u := by
  obtain ⟨whole, hwhole⟩ := FairReaches.exists_timeline hp
  obtain ⟨front, hfront⟩ := FairReaches.exists_timeline hq
  obtain ⟨htasks, hended⟩ := hwhole.ended_perm hpover (FairReaches.reaches hp).undisturbed
  have hinitial : front <+: whole := hfront.isPrefix hwhole htasks
  obtain ⟨r, hr, rfl⟩ := List.mem_map.mp (hended.mem_iff.mp he)
  have hreaches : Reaches slots (some time) (start tasks) q := FairReaches.reaches hq
  -- A task that has had a slot in the cancelled run is the same on both timelines.
  have hsame : ∀ v ∈ front, v.task = r.task → v = r := by
    intro v hv hvtask
    exact List.inj_on_of_nodup_map (htasks ▸ hnodup) (hinitial.subset hv) hr hvtask
  cases hreaches.manner u hu with
  | itself v =>
      have hv : v ∈ front := (hfront.mem_iff hqover).mpr ⟨_, hu, v.run?_ended⟩
      rw [hsame v hv htask] at hu ⊢
      have hearly : r.ended.finish ≤ time :=
        Nat.le_trans (hreaches.invariant.ended _ hu).1 (hreaches.invariant.time time rfl)
      exact .kept r hearly
  | stopped v cut cancelled late =>
      cases cancelled
      have hv : v ∈ front := (hfront.mem_iff hqover).mpr ⟨_, hu, v.run?_stopped time⟩
      have hbegun : v.start ≤ time :=
        Nat.le_trans (hfront.past v hv) (hreaches.invariant.time time rfl)
      rw [hsame v hv htask] at hbegun late ⊢
      exact .stopped r hbegun late
  | prevented t cut cancelled =>
      cases cancelled
      have ht : t = r.task := htask
      subst ht
      have hnot : r ∉ front := by
        intro hmem
        obtain ⟨v, hv, hrun⟩ := (hfront.mem_iff hqover).mp hmem
        have hvtask : v.task = r.task := EndedTask.task_of_run? hrun
        have hends := hreaches.invariant.ended_perm hqover
        have heq := List.inj_on_of_nodup_map (hends.nodup_iff.mpr hnodup) hv hu hvtask
        rw [heq, BucketTask.run?_prevented] at hrun
        cases hrun
      exact .prevented r (le_start_of_prevented hreaches hfront hwhole.isTimeline hinitial hu hr hnot)

/-- The bucket phase is over when it would have been, or at the time of the cancellation. -/
theorem now_eq_min (hnodup : tasks.Nodup) (hp : FairReaches slots none (start tasks) p)
    (hpover : p.isOver = true) (hq : FairReaches slots (some time) (start tasks) q)
    (hqover : q.isOver = true) : q.now = min time p.now := by
  have hpreaches : Reaches slots none (start tasks) p := FairReaches.reaches hp
  have hqreaches : Reaches slots (some time) (start tasks) q := FairReaches.reaches hq
  have hsame : (q.ended.map (·.task)).Perm (p.ended.map (·.task)) :=
    (hqreaches.invariant.ended_perm hqover).trans (hpreaches.invariant.ended_perm hpover).symm
  have htime : q.now ≤ time := hqreaches.invariant.time time rfl
  have hle : q.now ≤ p.now := by
    rcases hqreaches.now_eq with hzero | ⟨u, hu, hfinish⟩
    · rw [hzero]
      exact Nat.zero_le _
    · obtain ⟨e, he, htask⟩ := List.mem_map.mp (hsame.mem_iff.mp (List.mem_map_of_mem hu))
      have hend : e.finish ≤ p.now := (hpreaches.invariant.ended e he).1
      rw [← hfinish]
      cases cutTo_of_task_eq hnodup hp hpover hq hqover he hu htask.symm with
      | kept _ early => exact hend
      | stopped r begun late => exact Nat.le_trans late hend
      | prevented r late => exact Nat.le_trans late (Nat.le_trans r.start_le_finish hend)
  have hge : min time p.now ≤ q.now := by
    rcases hpreaches.now_eq with hzero | ⟨e, he, hfinish⟩
    · rw [hzero, Nat.min_zero]
      exact Nat.zero_le _
    · obtain ⟨u, hu, htask⟩ := List.mem_map.mp (hsame.mem_iff.mpr (List.mem_map_of_mem he))
      have hend : u.finish ≤ q.now := (hqreaches.invariant.ended u hu).1
      rw [← hfinish]
      cases cutTo_of_task_eq hnodup hp hpover hq hqover he hu htask with
      | kept _ early => exact Nat.le_trans (Nat.min_le_right ..) hend
      | stopped r begun late => exact Nat.le_trans (Nat.min_le_left ..) hend
      | prevented r late => exact Nat.le_trans (Nat.min_le_left ..) hend
  exact Nat.le_antisymm (Nat.le_min.mpr ⟨htime, hle⟩) hge

end Compare

end Phase

namespace Orchestrator

/-- The start that is reported for a task, in a run whose bucket phase is over at some time. -/
structure ReportsStart (bucketPhase : Duration) (e : EndedTask) (r : BucketResult) : Prop where
  started : ∀ start, e.start = some start → e.outcome ≠ none → r.startedAt = start
  /-- The task was still waiting when the run was cancelled. -/
  unstarted : e.start = none → e.outcome ≠ none → r.startedAt = e.finish
  died : e.outcome = none → r.startedAt = bucketPhase

/-- What a cancellation at some time leaves of a bucket.  Its task ends as `e` and is reported as `r`
in the run that is not cancelled, and as `u` and `s` in the one that is. -/
structure BucketSpared (time : Duration) (e u : EndedTask) (r s : BucketResult) : Prop where
  task : u.task = e.task
  /-- A bucket that would have ended before gets its slot at the same time, gives it back at the same
  time and is reported with the same outcome and duration. -/
  before : e.finish < time → u.start = e.start ∧ u.finish = e.finish ∧ u.outcome = e.outcome ∧
    s.outcome = r.outcome ∧ s.duration = r.duration
  /-- The whole result is the same then, unless its task died. -/
  result : e.finish < time → e.outcome ≠ none → s = r
  /-- One that would have ended later is cancelled by then. -/
  after : time < e.finish → s.outcome = .cancelled ∧ u.outcome = some .cancelled ∧ u.finish ≤ time
  /-- One that would have started later never does. -/
  unstarted : ∃ start, e.start = some start ∧ (time < start → u.start = none)

/-- How the course of a run that is cancelled at some time compares with that of the same run when it
is not. -/
structure Spares (o : Orchestrator) (plan : Plan) (time : Duration) (whole cut : RunCourse) :
    Prop where
  buckets : ∀ j b, plan.buckets[j]? = some b → ∃ e ∈ whole.ended, ∃ u ∈ cut.ended, ∃ r s,
    e.task = ⟨j, b, o.attempt plan.level b⟩ ∧ whole.report.buckets[j]? = some r ∧
      cut.report.buckets[j]? = some s ∧ BucketSpared time e u r s ∧
      ReportsStart whole.bucketPhase e r ∧ ReportsStart cut.bucketPhase u s
  /-- All buckets have ended when they would have, or at the time of the cancellation. -/
  ended : ∀ u ∈ cut.ended, u.finish ≤ cut.bucketPhase
  bucketPhase : cut.bucketPhase = min time whole.bucketPhase
  leakCheck : cut.report.leakCheck.report?.isSome = whole.report.leakCheck.report?.isSome ∧
    cut.leakCheckStart.isSome = whole.leakCheckStart.isSome

variable {o : Orchestrator} {plan : Plan} {time : Duration} {p q : Phase}

theorem reportsStart_final (e : EndedTask) (now : Duration) :
    ReportsStart now e (e.final now) := by
  have hstarted := e.startedAt_final now
  refine ⟨?started, ?unstarted, ?died⟩
  case started =>
    intro start hstart hreports
    rw [hstarted, if_neg hreports, EndedTask.startedAt, hstart, Option.getD_some]
  case unstarted =>
    intro hstart hreports
    rw [hstarted, if_neg hreports, EndedTask.startedAt, hstart, Option.getD_none]
  case died =>
    intro hdied
    rw [hstarted, if_pos hdied]

theorem bucketSpared_of_cutTo {e u : EndedTask} (h : e.CutTo time u) (now now' : Duration) :
    BucketSpared time e u (e.final now) (u.final now') := by
  cases h with
  | kept r early =>
      obtain ⟨-, -, -, houtcome, hduration⟩ := r.ended.final_fields now
      obtain ⟨-, -, -, houtcome', hduration'⟩ := r.ended.final_fields now'
      refine ⟨rfl, fun _ => ⟨rfl, rfl, rfl, ?_, ?_⟩, fun _ hreports => ?_, ?_, r.start, rfl, ?_⟩
      · rw [houtcome, houtcome']
      · rw [hduration, hduration']
      · exact EndedTask.final_eq_final hreports now' now
      · intro hlate
        exact absurd hlate (Nat.not_lt.mpr early)
      · intro hlate
        exact absurd hlate (Nat.not_lt.mpr (Nat.le_trans r.start_le_finish early))
  | stopped r begun late =>
      have hlate : ¬ r.ended.finish < time := Nat.not_lt.mpr late
      refine ⟨rfl, fun h => absurd h hlate, fun h => absurd h hlate,
        fun _ => ⟨rfl, rfl, Nat.le_refl _⟩, r.start, rfl, ?_⟩
      intro hlater
      exact absurd hlater (Nat.not_lt.mpr begun)
  | prevented r late =>
      have hlate : ¬ r.ended.finish < time :=
        Nat.not_lt.mpr (Nat.le_trans late r.start_le_finish)
      exact ⟨rfl, fun h => absurd h hlate, fun h => absurd h hlate,
        fun _ => ⟨rfl, rfl, Nat.le_refl _⟩, r.start, rfl, fun _ => rfl⟩

/-- Whether a leak check takes place does not depend on the bucket phase. -/
theorem isSome_leakCheck_conclude (o : Orchestrator) (plan : Plan) (p q : Phase) :
    (o.conclude plan q).report.leakCheck.report?.isSome =
        (o.conclude plan p).report.leakCheck.report?.isSome ∧
      (o.conclude plan q).leakCheckStart.isSome = (o.conclude plan p).leakCheckStart.isSome := by
  unfold conclude
  split
  · exact ⟨rfl, rfl⟩
  · split <;> exact ⟨rfl, rfl⟩

/-- However the two bucket phases have gone, as long as slots were handed out fairly, the cancelled
run spares what was finished. -/
theorem conclude_spares (hp : Phase.FairReaches o.slots none (.start (o.tasks plan)) p)
    (hpover : p.isOver = true)
    (hq : Phase.FairReaches o.slots (some time) (.start (o.tasks plan)) q)
    (hqover : q.isOver = true) :
    o.Spares plan time (o.conclude plan p) (o.conclude plan q) := by
  have hnodup : (o.tasks plan).Nodup := by
    refine List.Nodup.of_map (·.index) ?_
    rw [index_tasks]
    exact List.nodup_range'
  have hpinv := (Phase.FairReaches.reaches hp).invariant
  have hqinv := (Phase.FairReaches.reaches hq).invariant
  refine ⟨?buckets, ?ended, ?bucketPhase, isSome_leakCheck_conclude o plan p q⟩
  case buckets =>
    intro j b hb
    obtain ⟨e, he, hetask, heresult⟩ := exists_final hpinv hpover hb
    obtain ⟨u, hu, hutask, huresult⟩ := exists_final hqinv hqover hb
    have hcut := Phase.cutTo_of_task_eq hnodup hp hpover hq hqover he hu (hutask.trans hetask.symm)
    rw [ended_conclude, ended_conclude, bucketPhase_conclude, bucketPhase_conclude]
    exact ⟨e, List.mem_reverse.mpr he, u, List.mem_reverse.mpr hu, e.final p.now, u.final q.now,
      hetask, heresult, huresult, bucketSpared_of_cutTo hcut p.now q.now,
      reportsStart_final e p.now, reportsStart_final u q.now⟩
  case ended =>
    intro u hu
    rw [ended_conclude, List.mem_reverse] at hu
    rw [bucketPhase_conclude]
    exact (hqinv.ended u hu).1
  case bucketPhase =>
    rw [bucketPhase_conclude, bucketPhase_conclude]
    exact Phase.now_eq_min hnodup hp hpover hq hqover

/-- A cancellation only touches what is not finished.  So it is with the runs of `execute`, and with
every two runs that hand out slots at once and in the order of the plan, whichever of the tasks that
end at one time comes first. -/
theorem execute_spares (o : Orchestrator) (plan : Plan) (time : Duration) :
    o.Spares plan time (o.execute none plan) (o.execute (some time) plan) ∧
      ∀ p q, Phase.FairReaches o.slots none (.start (o.tasks plan)) p → p.isOver = true →
        Phase.FairReaches o.slots (some time) (.start (o.tasks plan)) q → q.isOver = true →
        o.Spares plan time (o.conclude plan p) (o.conclude plan q) := by
  constructor
  · exact conclude_spares (Phase.fairReaches_run ..) (Phase.isOver_run o.slots_pos _)
      (Phase.fairReaches_run ..) (Phase.isOver_run o.slots_pos _)
  · intro p q hp hpover hq hqover
    exact conclude_spares hp hpover hq hqover

/-- As `mixed`, with one slot. -/
def narrow : Orchestrator := { mixed with slots := 1, slots_pos := Nat.zero_lt_one }

/-- The first bucket would end after one minute, and the second, whose task dies, starts then.  A
cancellation after half a minute leaves nothing of them, one after 65 seconds leaves the first, and
one after two minutes leaves both. -/
theorem execute_spares_narrow :
    narrow.Spares twoBucketPlan (.ofSecs 120) (narrow.execute none twoBucketPlan)
        (narrow.execute (some (.ofSecs 120)) twoBucketPlan) ∧
      narrow.Spares twoBucketPlan (.ofSecs 65) (narrow.execute none twoBucketPlan)
        (narrow.execute (some (.ofSecs 65)) twoBucketPlan) ∧
      Phase.FairReaches narrow.slots none (.start (narrow.tasks twoBucketPlan))
        (narrow.runBuckets none twoBucketPlan) ∧
      (narrow.runBuckets none twoBucketPlan).isOver = true ∧
      Phase.FairReaches narrow.slots (some (.ofSecs 30)) (.start (narrow.tasks twoBucketPlan))
        (narrow.runBuckets (some (.ofSecs 30)) twoBucketPlan) ∧
      (narrow.runBuckets (some (.ofSecs 30)) twoBucketPlan).isOver = true ∧
      narrow.Spares twoBucketPlan (.ofSecs 30)
        (narrow.conclude twoBucketPlan (narrow.runBuckets none twoBucketPlan))
        (narrow.conclude twoBucketPlan (narrow.runBuckets (some (.ofSecs 30)) twoBucketPlan)) ∧
      (narrow.execute none twoBucketPlan).ended =
        [⟨plainTask, some 0, .ofSecs 60, some .succeeded⟩,
          ⟨clusterTask, some (.ofSecs 60), .ofSecs 70, none⟩] ∧
      (narrow.execute (some (.ofSecs 65)) twoBucketPlan).ended =
        [⟨plainTask, some 0, .ofSecs 60, some .succeeded⟩,
          ⟨clusterTask, some (.ofSecs 60), .ofSecs 65, some .cancelled⟩] ∧
      (narrow.execute (some (.ofSecs 30)) twoBucketPlan).ended =
        [⟨plainTask, some 0, .ofSecs 30, some .cancelled⟩,
          ⟨clusterTask, none, .ofSecs 30, some .cancelled⟩] ∧
      (narrow.execute none twoBucketPlan).report.buckets.map (fun r => (r.outcome, r.startedAt)) =
        [(.succeeded, 0), (.failed none "bucket task aborted", .ofSecs 70)] ∧
      (narrow.execute (some (.ofSecs 65)) twoBucketPlan).report.buckets.map
          (fun r => (r.outcome, r.startedAt)) =
        [(.succeeded, 0), (.cancelled, .ofSecs 60)] ∧
      (narrow.execute (some (.ofSecs 30)) twoBucketPlan).report.buckets.map
          (fun r => (r.outcome, r.startedAt)) =
        [(.cancelled, 0), (.cancelled, .ofSecs 30)] := by
  have hwhole := Phase.fairReaches_run (narrow.tasks twoBucketPlan) narrow.slots none
  have hcut := Phase.fairReaches_run (narrow.tasks twoBucketPlan) narrow.slots (some (.ofSecs 30))
  exact ⟨(execute_spares narrow twoBucketPlan (.ofSecs 120)).1,
    (execute_spares narrow twoBucketPlan (.ofSecs 65)).1, hwhole, rfl, hcut, rfl,
    (execute_spares narrow twoBucketPlan (.ofSecs 30)).2 _ _ hwhole rfl hcut rfl, rfl, rfl, rfl,
    rfl, rfl, rfl⟩

end Orchestrator

end CiPlan
