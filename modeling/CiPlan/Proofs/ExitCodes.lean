import CiPlan.Proofs.Rejection
import CiPlan.Proofs.Setup

/-!
# Exit codes

A pipeline reads the outcome of a run off the exit code of the program that it started, which may be
the command that carries out a run or the batch program.

* On a report both have one code, and it tells which kind of failure the run was (`Tells`).
* The plan of a trigger is rejected just when the partition has defects.  All commands that make a plan
  or show its partition, and the batch program with and without carrying the plan out, have exit code 3
  on the same files and triggers: those that lead to such a partition (`World.Rejects`).

Every other failure on the way has another code.  `failsWith_…` say so for each step, so that an exit
code of 3 can be followed through a command by `exitCode_bind_iff`.
-/

namespace CiPlan

/-- A run fails only over its plan. -/
theorem Orchestrator.run_cases (o : Orchestrator) (planner : Planner) (cancel : Option Duration)
    (trigger : TriggerEvent) :
    let report := planner.verify (Gate.ofTrigger trigger).level
    (report.isClean = true ∧ ∃ course, o.run planner cancel trigger = .ok course) ∨
      (report.isClean = false ∧ o.run planner cancel trigger = .error (.plan report.rejection)) := by
  intro report
  refine (planner.plan_cases_isClean trigger).imp ?_ ?_
  · rintro ⟨hclean, plan, hplan⟩
    exact ⟨hclean, _, bind_eq_ok.mpr ⟨plan, mapError_eq_ok.mpr hplan, rfl⟩⟩
  · rintro ⟨hclean, hplan⟩
    refine ⟨hclean, ?_⟩
    rw [run, hplan]
    rfl

namespace Cli

/-! ## The codes of a report -/

/-- An exit code tells what came of a run. -/
structure Tells (r : RunReport) (code : Nat) : Prop where
  success : code = 0 ↔ r.isSuccess = true
  leak : code = 4 ↔ (∃ resources, r.leakVerdict? = some (.leaked resources)) ∨
    ∃ reason, r.leakVerdict? = some (.inconclusive reason)
  buckets : code = 5 ↔ r.leakCheckPassed = true ∧ ∃ b ∈ r.buckets, b.outcome.isSuccess = false
  known : code = 0 ∨ code = 4 ∨ code = 5

section Report

variable (r : RunReport)

theorem isEmpty_failed : r.failed.isEmpty = r.allSucceeded := by
  rw [RunReport.failed, RunReport.allSucceeded, Bool.eq_iff_iff, List.isEmpty_iff,
    List.filter_eq_nil_iff, List.all_eq_true]
  simp

theorem exitCode_checkReport (page : Page) :
    (Result.ofPage page (checkReport r)).exitCode = Batch.exitCodeOf r := by
  rw [checkReport, Batch.exitCodeOf, RunReport.leakCheckPassed, isEmpty_failed]
  cases r.leakVerdict? with
  | none => cases r.allSucceeded <;> rfl
  | some verdict =>
      cases verdict with
      | clean => cases r.allSucceeded <;> rfl
      | leaked resources => rfl
      | inconclusive reason => rfl

theorem leakCheckPassed_eq_false_iff :
    r.leakCheckPassed = false ↔ (∃ resources, r.leakVerdict? = some (.leaked resources)) ∨
      ∃ reason, r.leakVerdict? = some (.inconclusive reason) := by
  rw [RunReport.leakCheckPassed]
  cases r.leakVerdict? with
  | none => simp
  | some verdict => cases verdict <;> simp [LeakVerdict.isClean]

theorem allSucceeded_eq_false_iff :
    r.allSucceeded = false ↔ ∃ b ∈ r.buckets, b.outcome.isSuccess = false := by
  simp [RunReport.allSucceeded]

theorem tells_exitCodeOf : Tells r (Batch.exitCodeOf r) := by
  have hleak := leakCheckPassed_eq_false_iff r
  have hbuckets := allSucceeded_eq_false_iff r
  rw [Batch.exitCodeOf]
  refine ⟨?_, ?_, ?_, ?_⟩
  · rw [RunReport.isSuccess]
    cases r.leakCheckPassed <;> cases r.allSucceeded <;> simp
  · rw [← hleak]
    cases r.leakCheckPassed <;> cases r.allSucceeded <;> simp
  · rw [← hbuckets]
    cases r.leakCheckPassed <;> cases r.allSucceeded <;> simp
  · cases r.leakCheckPassed <;> cases r.allSucceeded <;> simp

theorem exitCodeOf_ne_rejected : Batch.exitCodeOf r ≠ 3 := by
  intro h
  rcases (tells_exitCodeOf r).known with h' | h' | h' <;> exact absurd (h.symm.trans h') (by decide)

end Report

/-- A partition that is shown for one level is rejected when it has defects. -/
theorem exitCode_partition_iff (page : Page) (report : PartitionReport) :
    let defective := [report].filter (!·.isClean)
    (Result.ofPage page
      (if defective.isEmpty then .ok () else .error (.levelsRejected defective))).exitCode = 3 ↔
        report.isClean = false := by
  simp only [List.filter_cons]
  cases report.isClean with
  | true => exact ⟨nofun, nofun⟩
  | false => exact ⟨fun _ => rfl, fun _ => rfl⟩

/-! ## The failures on the way -/

/-- The exit code is not that of a rejected plan. -/
def CommandError.IsOther (e : CommandError) : Prop := e.exitCode ≠ 3

section Steps

open CommandError (IsOther)

variable {α : Type} (w : World)

/-- A rejected plan of a command in steps is rejected by the rest when the first step cannot. -/
theorem exitCode_bind_iff {x : Except CommandError α} {rest : α → Except CommandError Result}
    (hx : FailsWith IsOther x) :
    (Result.ofExcept (x >>= rest)).exitCode = 3 ↔
      ∃ a, x = .ok a ∧ (Result.ofExcept (rest a)).exitCode = 3 := by
  cases x with
  | error e =>
      constructor
      · intro h
        exact absurd h (hx e rfl)
      · rintro ⟨a, h, -⟩
        cases h
  | ok a =>
      constructor
      · intro h
        exact ⟨a, rfl, h⟩
      · rintro ⟨a', h, hcode⟩
        cases h
        exact hcode

theorem isOther_failure (e : Failure) : (CommandError.failure e).IsOther := by
  cases e <;> exact fun h => nomatch h

/-- Only a rejected plan is an error of its own. -/
theorem ofPlanner_of_isOther {reason : PlannerError} (h : reason.IsOther) :
    CommandError.ofPlanner reason = .failure (.plan reason) := by
  cases reason with
  | partitionViolated level orphans duplicates empty => exact absurd trivial h
  | _ => rfl

variable {kind : CommandError → Prop}

theorem failsWith_triggerOf (h : ∀ reason, kind (.badRequest reason)) (text : String) :
    FailsWith kind (triggerOf text) :=
  .mapError (fun _ => h _) _

/-- A configuration that is not loaded is wrong, or its file cannot be read. -/
theorem failsWith_configOf [Formats] (hconfig : ∀ reason, kind (.failure (.config reason)))
    (hio : ∀ reason, kind (.failure (.io reason))) (path : String) :
    FailsWith kind (configOf w path) := by
  have hload : FailsWith (fun e => kind (.failure e)) (w.loadConfig path) := by
    refine FailsWith.bind (.mapError (fun e => ?_) _) fun file _ => ?_
    · cases e with
      | notFound => exact hconfig _
      | _ => exact hio _
    · apply FailsWith.bind
      · apply FailsWith.mapError
        exact hio
      · intro text _
        apply FailsWith.mapError
        exact hconfig
  intro e he
  obtain ⟨reason, hreason, rfl⟩ := mapError_eq_error.mp he
  exact hload reason hreason

/-- Whatever keeps a planner from being made, it is no rejected plan. -/
theorem failsWith_plannerOf [Formats] (h : ∀ reason, kind (.failure (.plan reason))) (c : Config) :
    FailsWith kind (w.plannerOf c) := by
  intro e he
  obtain ⟨reason, hreason, rfl⟩ := mapError_eq_error.mp he
  rw [ofPlanner_of_isOther (failsWith_ofConfig w.files c reason hreason)]
  exact h reason

end Steps

/-! ## Rejected plans -/

/-- A trigger text and a configuration file lead to a planner. -/
structure World.Prepares [Formats] (w : World) (path text : String) (trigger : TriggerEvent)
    (c : Config) (planner : Planner) : Prop where
  trigger : TriggerEvent.parse text = .ok trigger
  config : w.loadConfig path = .ok c
  planner : Planner.ofConfig w.files c = .ok planner

/-- A trigger text and a configuration file lead to a partition that has defects. -/
def World.Rejects [Formats] (w : World) (path text : String) : Prop :=
  ∃ trigger c planner, w.Prepares path text trigger c planner ∧
    (planner.verify (Gate.ofTrigger trigger).level).isClean = false

section Commands

variable (w : World) (path text : String)

section Binds

variable {c : Config}

theorem exitCode_triggerOf_bind (rest : TriggerEvent → Except CommandError Result) :
    (Result.ofExcept (triggerOf text >>= rest)).exitCode = 3 ↔
      ∃ trigger, TriggerEvent.parse text = .ok trigger ∧
        (Result.ofExcept (rest trigger)).exitCode = 3 := by
  rw [exitCode_bind_iff (failsWith_triggerOf (fun _ h => nomatch h) text)]
  simp only [triggerOf, mapError_eq_ok]

theorem exitCode_configOf_bind [Formats] (rest : Config → Except CommandError Result) :
    (Result.ofExcept (configOf w path >>= rest)).exitCode = 3 ↔
      ∃ c, w.loadConfig path = .ok c ∧ (Result.ofExcept (rest c)).exitCode = 3 := by
  rw [exitCode_bind_iff
    (failsWith_configOf w (fun _ => isOther_failure _) (fun _ => isOther_failure _) path)]
  simp only [configOf, mapError_eq_ok]

theorem exitCode_plannerOf_bind [Formats] (rest : Planner → Except CommandError Result) :
    (Result.ofExcept (w.plannerOf c >>= rest)).exitCode = 3 ↔
      ∃ planner, Planner.ofConfig w.files c = .ok planner ∧
        (Result.ofExcept (rest planner)).exitCode = 3 := by
  rw [exitCode_bind_iff (failsWith_plannerOf w (fun _ => isOther_failure _) c)]
  simp only [World.plannerOf, mapError_eq_ok]

end Binds

/-- To be rejected is decided by what is made of the planner. -/
theorem exists_prepares_iff [Formats] {made : TriggerEvent → Config → Planner → Prop}
    (h : ∀ trigger c planner, w.Prepares path text trigger c planner →
      (made trigger c planner ↔ (planner.verify (Gate.ofTrigger trigger).level).isClean = false)) :
    (∃ trigger, TriggerEvent.parse text = .ok trigger ∧ ∃ c, w.loadConfig path = .ok c ∧
      ∃ planner, Planner.ofConfig w.files c = .ok planner ∧ made trigger c planner) ↔
        w.Rejects path text := by
  constructor
  · rintro ⟨trigger, htrigger, c, hc, planner, hplanner, hmade⟩
    have hprepares : w.Prepares path text trigger c planner := ⟨htrigger, hc, hplanner⟩
    exact ⟨trigger, c, planner, hprepares, (h _ _ _ hprepares).mp hmade⟩
  · rintro ⟨trigger, c, planner, hprepares, hdefects⟩
    exact ⟨trigger, hprepares.trigger, c, hprepares.config, planner, hprepares.planner,
      (h _ _ _ hprepares).mpr hdefects⟩

/-- The plan that a command shows is rejected when the partition has defects. -/
theorem exitCode_plan_iff [Formats] (tests : Bool) :
    ((Request.plan text tests).execute w path).exitCode = 3 ↔ w.Rejects path text := by
  simp only [Request.execute, Cli.plan, exitCode_triggerOf_bind, exitCode_configOf_bind,
    exitCode_plannerOf_bind]
  refine exists_prepares_iff w path text fun trigger c planner _ => ?_
  rcases planner.plan_cases_isClean trigger with ⟨hclean, plan, hplan⟩ | ⟨hdefects, hplan⟩
  · rw [hplan, hclean]
    exact ⟨nofun, nofun⟩
  · rw [hplan, hdefects]
    exact ⟨fun _ => rfl, fun _ => rfl⟩

/-- The partition that a command shows for a trigger is rejected when it has defects. -/
theorem exitCode_verify_iff [Formats] :
    ((Request.verify (some text)).execute w path).exitCode = 3 ↔ w.Rejects path text := by
  simp only [Request.execute, Cli.verify, pure_bind, exitCode_triggerOf_bind,
    exitCode_configOf_bind, exitCode_plannerOf_bind]
  -- The trigger is read last here.
  constructor
  · rintro ⟨c, hc, planner, hplanner, trigger, htrigger, hcode⟩
    exact ⟨trigger, c, planner, ⟨htrigger, hc, hplanner⟩, (exitCode_partition_iff _ _).mp hcode⟩
  · rintro ⟨trigger, c, planner, hprepares, hdefects⟩
    exact ⟨c, hprepares.config, planner, hprepares.planner, trigger, hprepares.trigger,
      (exitCode_partition_iff _ _).mpr hdefects⟩

/-- The run of a plan without defects ends with the code of its report. -/
theorem exitCode_run_of_course [Formats] {trigger : TriggerEvent} {c : Config} {planner : Planner}
    (h : w.Prepares path text trigger c planner) {o : Orchestrator}
    (ho : w.orchestratorOf c = .ok o) {course : RunCourse}
    (hrun : o.run planner none trigger = .ok course) :
    ((Request.run text).execute w path).exitCode = Batch.exitCodeOf course.report := by
  rw [← exitCode_checkReport course.report (.ofRun w.style course)]
  simp only [Request.execute, Cli.run, triggerOf, configOf, World.plannerOf, h.trigger, h.config,
    h.planner, ho, hrun, mapError_ok, ok_bind]
  rfl

/-- The run that a command carries out is rejected when the partition has defects. -/
theorem exitCode_run_iff [Formats] :
    ((Request.run text).execute w path).exitCode = 3 ↔ w.Rejects path text := by
  simp only [Request.execute, Cli.run, exitCode_triggerOf_bind, exitCode_configOf_bind,
    exitCode_plannerOf_bind]
  refine exists_prepares_iff w path text fun trigger c planner hprepares => ?_
  obtain ⟨o, ho⟩ := w.exists_orchestratorOf_eq_ok (w.validate_of_loadConfig hprepares.config)
  rcases o.run_cases planner none trigger with ⟨hclean, course, hrun⟩ | ⟨hdefects, hrun⟩
  · simp only [ho, hrun, mapError_ok, ok_bind]
    rw [hclean]
    have hcode := exitCode_checkReport course.report (.ofRun w.style course)
    exact ⟨fun h => absurd (hcode.symm.trans h) (exitCodeOf_ne_rejected course.report), nofun⟩
  · simp only [ho, hrun, mapError_ok, ok_bind, mapError_error, error_bind]
    rw [hdefects]
    exact ⟨fun _ => rfl, fun _ => rfl⟩

end Commands

/-! ## The batch program -/

namespace Batch

section Attempt

variable {w : World} {i : Invocation} {trigger : TriggerEvent} {file : Config} {planner : Planner}

/-- What the batch program does once it has a planner. -/
theorem attempt_of_prepares [Formats] (hlogs : i.LogsAllowed)
    (h : w.Prepares i.configPath i.trigger trigger file planner) :
    let report := planner.verify (Gate.ofTrigger trigger).level
    (report.isClean = false ∧ attempt w i = .ok (.ended 3 none)) ∨
      (report.isClean = true ∧ i.dryRun = true ∧ ∃ json, attempt w i = .ok (.ended 0 json)) ∨
      (report.isClean = true ∧ i.dryRun = false ∧ ∃ o course json, w.orchestratorOf file = .ok o ∧
        o.run planner none trigger = .ok course ∧
          attempt w i = .ok (.ended (exitCodeOf course.report) json)) := by
  intro report
  have hsettings := (settings_eq_ok_iff w).mpr ⟨hlogs, file, h.config, rfl⟩
  -- The steps up to the planner succeed, so that only the last of them counts.
  rw [attempt, hsettings, h.trigger, mapError_ok, ok_bind, ok_bind]
  have hplanner : Planner.ofConfig w.files
      { file with general := file.general.withLogging i.logLevel i.logFormat } = .ok planner :=
    h.planner
  rw [hplanner, mapError_ok, ok_bind]
  cases hdry : i.dryRun with
  | true =>
      rw [if_pos rfl]
      rcases planner.plan_cases_isClean trigger with ⟨hclean, plan, hplan⟩ | ⟨hdefects, hplan⟩
      · rw [hplan]
        exact .inr (.inl ⟨hclean, rfl, _, rfl⟩)
      · rw [hplan]
        exact .inl ⟨hdefects, rfl⟩
  | false =>
      rw [if_neg Bool.false_ne_true]
      obtain ⟨o, ho⟩ := w.exists_orchestratorOf_eq_ok (w.validate_of_loadConfig h.config)
      have horchestrator : w.orchestratorOf
          { file with general := file.general.withLogging i.logLevel i.logFormat } = .ok o := ho
      rw [horchestrator, mapError_ok, ok_bind]
      rcases o.run_cases planner none trigger with ⟨hclean, course, hrun⟩ | ⟨hdefects, hrun⟩
      · rw [hrun]
        exact .inr (.inr ⟨hclean, rfl, o, course, _, ho, hrun, rfl⟩)
      · rw [hrun]
        exact .inl ⟨hdefects, rfl⟩

/-- The batch program gets a planner, or it fails. -/
theorem prepares_or_failure [Formats] (w : World) (i : Invocation) :
    (i.LogsAllowed ∧ ∃ trigger file planner,
      w.Prepares i.configPath i.trigger trigger file planner) ∨ (i.execute w).exitCode = 1 := by
  cases h : attempt w i with
  | error e =>
      refine .inr ?_
      rw [Invocation.execute, h]
  | ok r =>
      refine .inl ?_
      obtain ⟨c, hsettings, h⟩ := bind_eq_ok.mp h
      obtain ⟨trigger, htrigger, h⟩ := bind_eq_ok.mp h
      obtain ⟨planner, hplanner, -⟩ := bind_eq_ok.mp h
      obtain ⟨hlogs, file, hfile, rfl⟩ := (settings_eq_ok_iff w).mp hsettings
      exact ⟨hlogs, trigger, file, planner, mapError_eq_ok.mp htrigger, hfile,
        mapError_eq_ok.mp hplanner⟩

end Attempt

variable (w : World)

/-- The batch program rejects the plan when the partition has defects, whether or not it would have
carried the plan out. -/
theorem exitCode_execute_iff [Formats] (i : Invocation) :
    (i.execute w).exitCode = 3 ↔ i.LogsAllowed ∧ w.Rejects i.configPath i.trigger := by
  constructor
  · intro hcode
    rcases prepares_or_failure w i with ⟨hlogs, trigger, file, planner, hprepares⟩ | hfail
    · refine ⟨hlogs, trigger, file, planner, hprepares, ?_⟩
      rw [Invocation.execute] at hcode
      rcases attempt_of_prepares hlogs hprepares with
        ⟨hdefects, -⟩ | ⟨-, -, json, hattempt⟩ | ⟨-, -, o, course, json, -, -, hattempt⟩
      · exact hdefects
      · rw [hattempt] at hcode
        cases hcode
      · rw [hattempt] at hcode
        exact absurd hcode (exitCodeOf_ne_rejected course.report)
    · rw [hfail] at hcode
      cases hcode
  · rintro ⟨hlogs, trigger, file, planner, hprepares, hdefects⟩
    rcases attempt_of_prepares hlogs hprepares with ⟨-, hattempt⟩ | ⟨hclean, -⟩ | ⟨hclean, -⟩
    · rw [Invocation.execute, hattempt]
      rfl
    · exact absurd hclean (by simp [hdefects])
    · exact absurd hclean (by simp [hdefects])

/-- An exit code without the difference between failures before a run, which the batch program does not
make. -/
def withoutCause (code : Nat) : Nat :=
  if code = 2 ∨ code = 10 then 1 else code

theorem withoutCause_failure (e : Failure) :
    withoutCause (CommandError.failure e).exitCode = 1 := by
  cases e <;> rfl

theorem withoutCause_exitCodeOf (r : RunReport) : withoutCause (exitCodeOf r) = exitCodeOf r := by
  rcases (tells_exitCodeOf r).known with h | h | h <;> rw [h] <;> rfl

/-- A run that does not get to a planner fails for another reason than its plan or its outcome. -/
theorem withoutCause_run [Formats] {path text : String}
    (h : ¬ ∃ trigger c planner, w.Prepares path text trigger c planner) :
    withoutCause ((Request.run text).execute w path).exitCode = 1 := by
  rw [Request.execute, Cli.run, triggerOf, configOf]
  cases htrigger : TriggerEvent.parse text with
  | error e => rfl
  | ok trigger =>
      cases hfile : w.loadConfig path with
      | error e => exact withoutCause_failure e
      | ok file =>
          simp only [mapError_ok, ok_bind, World.plannerOf]
          cases hplanner : Planner.ofConfig w.files file with
          | error reason =>
              simp only [mapError_error, error_bind,
                ofPlanner_of_isOther (failsWith_ofConfig w.files file reason hplanner)]
              exact withoutCause_failure (.plan reason)
          | ok planner => exact absurd ⟨trigger, file, planner, htrigger, hfile, hplanner⟩ h

/-- A run has the same end in both programs. -/
theorem exitCode_execute_eq [Formats] {i : Invocation} (hlogs : i.LogsAllowed)
    (hdry : i.dryRun = false) :
    (i.execute w).exitCode =
      withoutCause ((Request.run i.trigger).execute w i.configPath).exitCode := by
  by_cases hprepares : ∃ trigger file planner,
      w.Prepares i.configPath i.trigger trigger file planner
  · obtain ⟨trigger, file, planner, hprepares⟩ := hprepares
    rcases attempt_of_prepares hlogs hprepares with
      ⟨hdefects, hattempt⟩ | ⟨-, hdry', -⟩ | ⟨-, -, o, course, json, ho, hrun, hattempt⟩
    · rw [Invocation.execute, hattempt,
        (exitCode_run_iff w _ _).mpr ⟨trigger, file, planner, hprepares, hdefects⟩]
      rfl
    · rw [hdry] at hdry'
      cases hdry'
    · rw [Invocation.execute, hattempt, exitCode_run_of_course w _ _ hprepares ho hrun,
        withoutCause_exitCodeOf]
      rfl
  · have hfail := (prepares_or_failure w i).resolve_left fun h => hprepares h.2
    rw [hfail, withoutCause_run w hprepares]

end Batch

/-! ## Both front ends -/

/-- The programs that make a plan for a trigger, or show its partition, or carry it out, end alike on a
configuration file and a trigger text. -/
structure World.EndsAlike [Formats] (w : World) (path text : String) : Prop where
  plan : ∀ tests, ((Request.plan text tests).execute w path).exitCode = 3 ↔ w.Rejects path text
  verify : ((Request.verify (some text)).execute w path).exitCode = 3 ↔ w.Rejects path text
  run : ((Request.run text).execute w path).exitCode = 3 ↔ w.Rejects path text
  batch : ∀ dryRun, ((⟨path, text, none, none, dryRun⟩ : Batch.Invocation).execute w).exitCode = 3 ↔
    w.Rejects path text
  /-- A way of logging that there is not is found before anything else. -/
  logging : ∀ level format dryRun,
    let i : Batch.Invocation := ⟨path, text, level, format, dryRun⟩
    (i.execute w).exitCode = 3 ↔ i.LogsAllowed ∧ w.Rejects path text
  /-- The batch program ends a run as the command does, where both tell the failures apart. -/
  outcome : ((⟨path, text, none, none, false⟩ : Batch.Invocation).execute w).exitCode =
    Batch.withoutCause ((Request.run text).execute w path).exitCode

theorem World.endsAlike [Formats] (w : World) (path text : String) : w.EndsAlike path text where
  plan := exitCode_plan_iff w path text
  verify := exitCode_verify_iff w path text
  run := exitCode_run_iff w path text
  batch _ := (Batch.exitCode_execute_iff w _).trans (and_iff_right ⟨rfl, rfl⟩)
  logging _ _ _ := Batch.exitCode_execute_iff w _
  outcome := Batch.exitCode_execute_eq w ⟨rfl, rfl⟩ rfl

/-- Both front ends give the same verdict on a report; a plan is rejected over the defects of the
partition and over nothing else; and all programs reject the same plans. -/
theorem frontEnds_agree [Formats] :
    (∀ (page : Page) (r : RunReport),
      (Result.ofPage page (checkReport r)).exitCode = Batch.exitCodeOf r ∧
        Tells r (Batch.exitCodeOf r)) ∧
    (∀ (planner : Planner) (trigger : TriggerEvent),
      let level := (Gate.ofTrigger trigger).level
      let report := planner.verify level
      (∀ b ∈ planner.matrix.buckets, ∃ profile, planner.profileOf b = .ok profile) ∧
        ∀ e, planner.plan trigger = .error e ↔ report.isClean = false ∧
          e = .partitionViolated level report.orphans.length report.duplicates.length
            report.emptyBuckets.length) ∧
    ∀ (w : World) (path text : String), w.EndsAlike path text := by
  refine ⟨fun page r => ⟨exitCode_checkReport r page, tells_exitCodeOf r⟩,
    fun planner trigger => ⟨fun b hb => planner.exists_profileOf_eq_ok hb, fun e => ?_⟩,
    World.endsAlike⟩
  rcases planner.plan_cases_isClean trigger with ⟨hclean, plan, hplan⟩ | ⟨hdefects, hplan⟩
  · simp [hclean, hplan]
  · rw [hplan, hdefects]
    constructor
    · intro h
      cases h
      exact ⟨rfl, rfl⟩
    · rintro ⟨-, rfl⟩
      rfl

end Cli

end CiPlan
