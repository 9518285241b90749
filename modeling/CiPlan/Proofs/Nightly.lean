import CiPlan.Proofs.Execute
import CiPlan.Proofs.Verdict

/-!
# What a successful nightly run means

A nightly run ends with a leak check.  Between the success that such a run reports and what its
executor and its status client did lie the plan, the bucket phase, the rounds of queries and the sums
of both reports.  `run_isSuccess_nightly` goes through all of them:

* `succeeds_of_results` — successful results come from tasks that succeeded in time;
* `isSuccess_conclude` — the sums of the reports lose nothing;
* `forall_targets_iff` — the targets of the plan stand for all profiles that can leak.
-/

namespace CiPlan

/-- The executor carries out a bucket with success and within its time limit. -/
def Executor.Succeeds (executor : Executor) (defaultSecs : UInt64) (level : TriggerLevel)
    (planned : PlannedBucket) : Prop :=
  (executor planned level).ending = .outcome .succeeded ∧
    (executor planned level).delay ≤ .ofSecs (planned.bucket.effectiveTimeout defaultSecs)

/-- A query of a run has shown that nothing is left under a profile. -/
structure RunCourse.Clears (course : RunCourse) (checker : LeakChecker) (p : Profile) (q : Query) :
    Prop where
  statusCommand : q.profile.statusCommand = p.statusCommand
  env : q.profile.env = p.env
  secretEnv : q.profile.secretEnv = p.secretEnv
  /-- The leak check began at the end of the bucket phase, from where its queries are timed. -/
  begun : course.leakCheckStart = some course.bucketPhase
  /-- The query was made when all buckets had ended. -/
  after : ∀ e ∈ course.ended, e.finish ≤ course.bucketPhase + q.start
  /-- The client, asked after the queries before, answered in time with a listing that shows nothing
  leaked. -/
  answered : ∃ before after listing, course.queries = before ++ q :: after ∧
    q.answer = .ok listing ∧
    (checker.client before.reverse q.profile q.start).answer = .ok listing ∧
    (checker.client before.reverse q.profile q.start).delay ≤ checker.policy.queryTimeout ∧
    checker.parser.leaked listing = []

/-- The success that a run reports, and that alone, vouches for its buckets and for all profiles that
can leak. -/
structure RunCourse.Vouches (course : RunCourse) (executor : Executor) (defaultSecs : UInt64)
    (checker : LeakChecker) (plan : Plan) : Prop where
  /-- The executor has carried out every bucket in time. -/
  succeeds : course.report.isSuccess = true →
    ∀ b ∈ plan.buckets, executor.Succeeds defaultSecs plan.level b
  isSuccess_iff : course.report.isSuccess = true ↔
    (∀ r ∈ course.report.buckets, r.outcome = .succeeded) ∧
      ∀ b ∈ plan.buckets, b.profile.isLeakCheckTarget = true →
        ∃ q, course.Clears checker b.profile q

/-- Among the queries of a check that came after all buckets, those that clear a profile are those
for its key that show nothing leaked. -/
theorem RunCourse.exists_clears_iff {course : RunCourse} {c : LeakChecker}
    (hasked : c.Asked course.queries.reverse)
    (hbegun : course.leakCheckStart = some course.bucketPhase)
    (hbarrier : ∀ q ∈ course.queries, ∀ e ∈ course.ended,
      e.finish ≤ course.bucketPhase + q.start) {p : Profile} :
    (∃ q, course.Clears c p q) ↔ ∃ q ∈ course.queries, q.key = .of p ∧
      ∃ listing, q.answer = .ok listing ∧ c.parser.leaked listing = [] := by
  constructor
  · rintro ⟨q, hclears⟩
    obtain ⟨before, after, listing, hsplit, hanswer, -, -, hleaked⟩ := hclears.answered
    refine ⟨q, by simp [hsplit], ?_, listing, hanswer, hleaked⟩
    rw [Query.key, QueryKey.of, QueryKey.of, hclears.statusCommand, hclears.env, hclears.secretEnv]
  · rintro ⟨q, hq, hkey, listing, hanswer, hleaked⟩
    obtain ⟨hcommand, henv, hsecret⟩ := QueryKey.mk.inj hkey
    obtain ⟨later, earlier, hsplit, hreply, hdelay⟩ :=
      hasked.reply (List.mem_reverse.mpr hq) hanswer
    have hqueries : course.queries = earlier.reverse ++ q :: later.reverse := by
      rw [← List.reverse_reverse course.queries, hsplit]
      simp
    rw [← List.reverse_reverse earlier] at hreply hdelay
    exact ⟨q, hcommand, henv, hsecret, hbegun, hbarrier q hq, earlier.reverse, later.reverse, listing,
      hqueries, hanswer, hreply, hdelay, hleaked⟩

/-! ## Buckets -/

/-- A task that reports success under a time limit has succeeded within it. -/
theorem Attempt.succeeded_of_within {limitSecs : UInt64} {a : Attempt}
    (h : (a.within limitSecs).ending.outcome? = some .succeeded) :
    a.ending = .outcome .succeeded ∧ a.delay ≤ .ofSecs limitSecs := by
  unfold within at h
  split at h
  · next hle =>
    refine ⟨?_, hle⟩
    cases hending : a.ending with
    | outcome outcome =>
        rw [hending] at h
        cases h
        rfl
    | error reason =>
        rw [hending] at h
        cases h
    | aborted =>
        rw [hending] at h
        cases h
  · cases h

namespace Orchestrator

/-- When all results are successes, the executor has carried out every bucket. -/
theorem succeeds_of_results {o : Orchestrator} {cancel : Option Duration} {plan : Plan}
    {course : RunCourse} (h : o.CarriesOut cancel plan course)
    (hresults : ∀ r ∈ course.report.buckets, r.outcome = .succeeded) :
    ∀ b ∈ plan.buckets, o.executor.Succeeds o.defaultTimeoutSecs plan.level b := by
  intro b hb
  obtain ⟨i, hi, rfl⟩ := List.getElem_of_mem hb
  have hmem : (plan.buckets[i], i) ∈ plan.buckets.zipIdx :=
    List.mem_zipIdx_iff_getElem?.mpr (List.getElem?_eq_getElem hi)
  obtain ⟨r, hr, e, he, htask, -, -, -, houtcome⟩ := exists_of_forall₂ h.results hmem
  have hsucceeded : e.outcome = some .succeeded := by
    rw [hresults r hr] at houtcome
    cases hcase : e.outcome with
    | none =>
        rw [hcase] at houtcome
        cases houtcome
    | some outcome =>
        rw [hcase] at houtcome
        rw [houtcome]
        rfl
  rcases h.ends e he with ⟨start, -, -, hend⟩ | ⟨-, hcancelled⟩
  · rw [hsucceeded, htask] at hend
    exact Attempt.succeeded_of_within hend.symm
  · rw [hsucceeded] at hcancelled
    cases hcancelled

/-! ## Reports -/

/-- A run with a leak check is a success when all its results are and the check is clean. -/
theorem isSuccess_conclude {o : Orchestrator} {plan : Plan} (hlevel : plan.level ≠ .local)
    (henabled : o.leakCheckEnabled = true) (phase : Phase) :
    (o.conclude plan phase).report.isSuccess = true ↔
      (∀ r ∈ (o.conclude plan phase).report.buckets, r.outcome = .succeeded) ∧
        (o.checker.check plan.leakCheckTargets).report.isClean = true := by
  have houtcome : ∀ outcome : BucketOutcome, outcome.isSuccess = true ↔ outcome = .succeeded := by
    intro outcome
    cases outcome <;> simp [BucketOutcome.isSuccess]
  have hcheck : (o.conclude plan phase).report.leakCheck =
      .completed (o.checker.check plan.leakCheckTargets).report := by
    rw [Orchestrator.conclude_checked phase hlevel henabled]
    rfl
  simp only [RunReport.isSuccess, RunReport.allSucceeded, RunReport.leakCheckPassed,
    RunReport.leakVerdict?, hcheck, LeakCheckStatus.report?, Option.map_some, Option.all_some,
    Bool.and_eq_true, List.all_eq_true, houtcome]
  rfl

/-- What holds of the targets of a plan holds of every profile of a bucket that can leak. -/
theorem forall_targets_iff {p : Planner} {trigger : TriggerEvent} {plan : Plan}
    (h : p.plan trigger = .ok plan) (holds : Profile → Prop) :
    (∀ t ∈ plan.leakCheckTargets, holds t) ↔
      ∀ b ∈ plan.buckets, b.profile.isLeakCheckTarget = true → holds b.profile := by
  have hmem := mem_targetsOf_iff (Planner.namesDecide_of_plan h)
  rw [Planner.leakCheckTargets_of_plan h]
  constructor
  · intro hall b hb htarget
    exact hall b.profile ((hmem b.profile).mpr ⟨List.mem_map_of_mem hb, htarget⟩)
  · intro hall t ht
    obtain ⟨hprofile, htarget⟩ := (hmem t).mp ht
    obtain ⟨b, hb, rfl⟩ := List.mem_map.mp hprofile
    exact hall b hb htarget

/-! ## Runs -/

/-- A run carries out the plan of its trigger. -/
theorem run_eq_ok {o : Orchestrator} {planner : Planner} {cancel : Option Duration}
    {trigger : TriggerEvent} {course : RunCourse}
    (h : o.run planner cancel trigger = .ok course) :
    ∃ plan metrics, planner.plan trigger = .ok plan ∧
      course = { o.execute cancel plan with metrics := metrics } := by
  obtain ⟨plan, hplan, heq⟩ := bind_eq_ok.mp h
  cases heq
  exact ⟨plan, _, mapError_eq_ok.mp hplan, rfl⟩

end Orchestrator

/-- However the bucket phase of a plan with a leak check has gone, and whatever is counted besides, a
success vouches for all. -/
theorem Orchestrator.conclude_vouches {o : Orchestrator} {cancel : Option Duration}
    {planner : Planner} {trigger : TriggerEvent} {plan : Plan}
    (hplan : planner.plan trigger = .ok plan) (hlevel : plan.level ≠ .local)
    (henabled : o.leakCheckEnabled = true) (htimes : o.checker.policy.IsValid) {phase : Phase}
    (hreaches : Phase.Reaches o.slots cancel (.start (o.tasks plan)) phase)
    (hover : phase.isOver = true) {course : RunCourse} {metrics : List Metric.Sample}
    (hcourse : course = { o.conclude plan phase with metrics := metrics }) :
    course.Vouches o.executor o.defaultTimeoutSecs o.checker plan := by
  have hcarries := conclude_carriesOut hreaches.invariant hover
  have hsuccess := isSuccess_conclude hlevel henabled phase
  obtain ⟨hcompleted, hchecked⟩ := hcarries.completed hlevel henabled
  have hreport : course.report = (o.conclude plan phase).report := by rw [hcourse]
  have hqueries : course.queries = (o.conclude plan phase).queries := by rw [hcourse]
  have hasked : o.checker.Asked course.queries.reverse := by
    rw [hqueries, hchecked]
    exact LeakChecker.asked_check htimes plan.leakCheckTargets
  have hbegun : course.leakCheckStart = some course.bucketPhase := by
    rw [hcourse]
    show (o.conclude plan phase).leakCheckStart = some (o.conclude plan phase).bucketPhase
    rw [hcarries.begins, hcompleted]
    rfl
  have hbarrier : ∀ q ∈ course.queries, ∀ e ∈ course.ended,
      e.finish ≤ course.bucketPhase + q.start := by
    rw [hcourse]
    exact hcarries.barrier
  have hclean : (o.checker.check plan.leakCheckTargets).report.isClean = true ↔
      ∀ b ∈ plan.buckets, b.profile.isLeakCheckTarget = true →
        ∃ q, course.Clears o.checker b.profile q := by
    rw [LeakChecker.isClean_check_iff htimes, ← hchecked, ← hqueries]
    simp only [← RunCourse.exists_clears_iff hasked hbegun hbarrier]
    exact forall_targets_iff hplan fun p => ∃ q, course.Clears o.checker p q
  constructor
  · intro hsucceeded
    rw [hreport, hsuccess] at hsucceeded
    exact succeeds_of_results hcarries hsucceeded.1
  · rw [hreport]
    exact hsuccess.trans (and_congr_right fun _ => hclean)

/-- A nightly run is a success exactly when all its buckets have succeeded and each of their profiles
that can leak was seen to be clean after the last bucket; and then the executor has carried out each
bucket within its time limit.  The same holds whatever the order in which the tasks of the buckets
start and end. -/
theorem run_isSuccess_nightly [Formats] {config : Config} (hvalid : config.validate = .ok ())
    (henabled : config.leakCheck.enabled = true) {executor : Executor} {client : StatusClient}
    {o : Orchestrator} (ho : Orchestrator.ofConfig executor client config = .ok o)
    {planner : Planner} {trigger : TriggerEvent} (hnightly : Gate.ofTrigger trigger = .nightly)
    {cancel : Option Duration} {course : RunCourse}
    (h : o.run planner cancel trigger = .ok course) :
    ∃ plan, planner.plan trigger = .ok plan ∧
      course.Vouches executor config.runner.defaultTimeoutSecs
        ⟨o.checker.parser, .ofConfig config.leakCheck, client⟩ plan ∧
      ∀ phase, Phase.Reaches o.slots cancel (.start (o.tasks plan)) phase → phase.isOver = true →
        (o.conclude plan phase).Vouches executor config.runner.defaultTimeoutSecs
          ⟨o.checker.parser, .ofConfig config.leakCheck, client⟩ plan := by
  obtain ⟨hexecutor, hclient, hpolicy, hon, hdefault⟩ := Orchestrator.ofConfig_eq_ok ho
  obtain ⟨plan, metrics, hplan, hcourse⟩ := Orchestrator.run_eq_ok h
  have hchecker : o.checker = ⟨o.checker.parser, .ofConfig config.leakCheck, client⟩ := by
    rw [← hclient, ← hpolicy]
  have hlevel : plan.level ≠ .local := by
    have htrigger : plan.trigger = trigger := (Planner.plan_cases hplan).1
    rw [Plan.level, Plan.gate, htrigger, hnightly]
    decide
  have htimes : o.checker.policy.IsValid := by
    rw [hpolicy]
    exact LeakCheckConfig.isValid_of_validate (Config.leakCheck_of_validate hvalid)
  rw [← hchecker, ← hexecutor, ← hdefault]
  refine ⟨plan, hplan, ?_, ?_⟩
  · obtain ⟨phase, hreaches, hover, hexecute⟩ := Orchestrator.execute_eq_conclude o cancel plan
    rw [hexecute] at hcourse
    exact Orchestrator.conclude_vouches hplan hlevel (hon.trans henabled) htimes hreaches hover
      hcourse
  · intro phase hreaches hover
    exact Orchestrator.conclude_vouches hplan hlevel (hon.trans henabled) htimes hreaches hover rfl

/-- An executor under which every bucket succeeds. -/
def succeeding : Executor := fun _ _ => ⟨.outcome .succeeded, .ofSecs 60⟩

theorem isSuccess_succeeding :
    ((Orchestrator.ofConfig succeeding LeakChecker.recoveringClient .default).bind fun o =>
      (o.run twoBucketPlanner none .schedule).map (·.report.isSuccess)) = .ok true := by
  decide +kernel

theorem run_isSuccess_nightly_succeeding : ∃ o course,
    Config.default.validate = .ok () ∧ Config.default.leakCheck.enabled = true ∧
      Orchestrator.ofConfig succeeding LeakChecker.recoveringClient .default = .ok o ∧
      Gate.ofTrigger .schedule = .nightly ∧ o.run twoBucketPlanner none .schedule = .ok course ∧
      course.report.isSuccess = true ∧
      ∃ plan, twoBucketPlanner.plan .schedule = .ok plan ∧
        course.Vouches succeeding Config.default.runner.defaultTimeoutSecs
          ⟨o.checker.parser, .ofConfig Config.default.leakCheck, LeakChecker.recoveringClient⟩ plan ∧
        ∀ phase, Phase.Reaches o.slots none (.start (o.tasks plan)) phase → phase.isOver = true →
          (o.conclude plan phase).Vouches succeeding Config.default.runner.defaultTimeoutSecs
            ⟨o.checker.parser, .ofConfig Config.default.leakCheck, LeakChecker.recoveringClient⟩
            plan := by
  have hsuccess := isSuccess_succeeding
  cases ho : Orchestrator.ofConfig succeeding LeakChecker.recoveringClient .default with
  | error e =>
      rw [ho] at hsuccess
      cases hsuccess
  | ok o =>
      cases hrun : o.run twoBucketPlanner none .schedule with
      | error e =>
          simp [ho, Except.bind, hrun, Except.map] at hsuccess
      | ok course =>
          simp only [ho, Except.bind, hrun, Except.map, Except.ok.injEq] at hsuccess
          exact ⟨o, course, Config.validate_default, rfl, rfl, rfl, hrun, hsuccess,
            run_isSuccess_nightly Config.validate_default rfl ho rfl hrun⟩

end CiPlan
