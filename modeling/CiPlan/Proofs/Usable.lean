import CiPlan.Proofs.ExitCodes

/-!
# Checked settings can be used

What is wrong with a configuration is found when it is loaded.  Later the patterns of the leak check
are compiled and the test command is taken apart, and both can fail, but not under a configuration
that passed its check (`Config.isUsable_of_validate`).  A leak check that asks only once is given a
waiting time that the check rejects; but times are not looked at again.

An error over the patterns or the test command is therefore no error that a command can end with: it
would be a late one (`CommandError.IsLate`).  The commands are followed step by step, as for the
exit codes.  Main result: `validated_isUsable`.
-/

namespace CiPlan

/-- The configuration for a leak check that asks only once. -/
def Config.once (c : Config) : Config :=
  { c with leakCheck := c.leakCheck.once }

/-- No pattern and no command changes when the leak check is to ask only once. -/
theorem Config.IsUsable.once [Formats] {c : Config} (h : c.IsUsable) : c.once.IsUsable :=
  isUsable_of h.parser h.command

namespace Cli

/-! ## Late errors -/

/-- The patterns or the test command of a configuration turn out not to be usable. -/
def CommandError.IsLate : CommandError → Prop
  | unusableConfig _
  | failure (.leakCheck (.pattern ..))
  | failure (.execution .emptyCommand) => True
  | _ => False

abbrev CommandError.IsTimely (e : CommandError) : Prop := ¬ e.IsLate

/-- The error that a command ends with, if there is one, is not a late one. -/
def Result.IsTimely (r : Result) : Prop := ∀ e, r.error = some e → e.IsTimely

section Timely

open CommandError (IsTimely)

variable {α : Type}

theorem isTimely_ofPage {page : Page} {check : Except CommandError Unit}
    (h : FailsWith IsTimely check) : (Result.ofPage page check).IsTimely := by
  intro e he
  cases check with
  | ok =>
      cases he
  | error reason =>
      cases he
      exact h _ rfl

/-- A command in steps is timely when its steps are. -/
theorem isTimely_bind {x : Except CommandError α} {rest : α → Except CommandError Result}
    (hx : FailsWith IsTimely x) (hrest : ∀ a, x = .ok a → (Result.ofExcept (rest a)).IsTimely) :
    (Result.ofExcept (x >>= rest)).IsTimely := by
  cases x with
  | error e =>
      intro e' he
      cases he
      exact hx e rfl
  | ok a => exact hrest a rfl

theorem isTimely_ofPlanner (reason : PlannerError) : (CommandError.ofPlanner reason).IsTimely := by
  cases reason <;> exact id

theorem isTimely_checkVerdict (verdict : LeakVerdict) :
    FailsWith IsTimely (checkVerdict verdict) := by
  cases verdict with
  | clean => exact failsWith_ok ()
  | leaked resources => exact failsWith_error id
  | inconclusive reason => exact failsWith_error id

theorem isTimely_checkReport (r : RunReport) : FailsWith IsTimely (checkReport r) := by
  have hbuckets : FailsWith IsTimely (if r.failed.isEmpty = true then pure ()
      else throw (.bucketsFailed r.buckets.length (r.failed.map (·.bucket)))) := by
    split
    · exact failsWith_ok ()
    · exact failsWith_error id
  rw [checkReport]
  cases r.leakVerdict? with
  | none => exact hbuckets
  | some verdict => exact (isTimely_checkVerdict verdict).bind fun _ _ => hbuckets

end Timely

/-! ## Commands -/

section Commands

open CommandError (IsTimely)

variable (w : World) (path : String)

theorem isTimely_triggerOf (text : String) : FailsWith IsTimely (triggerOf text) :=
  failsWith_triggerOf (fun _ => id) text

theorem isTimely_configOf [Formats] : FailsWith IsTimely (configOf w path) :=
  failsWith_configOf w (fun _ => id) (fun _ => id) path

theorem isTimely_plannerOf [Formats] (c : Config) : FailsWith IsTimely (w.plannerOf c) :=
  failsWith_plannerOf w (fun _ => id) c

theorem isTimely_plan [Formats] (trigger : String) (tests : Bool) :
    (Result.ofExcept (Cli.plan w path trigger tests)).IsTimely := by
  refine isTimely_bind (isTimely_triggerOf trigger) fun trigger _ => ?_
  refine isTimely_bind (isTimely_configOf w path) fun c _ => ?_
  refine isTimely_bind (isTimely_plannerOf w c) fun planner _ => ?_
  cases planner.plan trigger with
  | ok plan => exact isTimely_ofPage (failsWith_ok ())
  | error reason => exact isTimely_ofPage (failsWith_error (isTimely_ofPlanner reason))

theorem isTimely_verify [Formats] (trigger : Option String) :
    (Result.ofExcept (Cli.verify w path trigger)).IsTimely := by
  have hreports : ∀ reports : List PartitionReport, (Result.ofPage (.ofPartitions reports)
      (if (reports.filter (!·.isClean)).isEmpty then .ok ()
        else .error (.levelsRejected (reports.filter (!·.isClean))))).IsTimely := by
    intro reports
    refine isTimely_ofPage ?_
    split
    · exact failsWith_ok ()
    · exact failsWith_error id
  refine isTimely_bind (isTimely_configOf w path) fun c _ => ?_
  refine isTimely_bind (isTimely_plannerOf w c) fun planner _ => ?_
  cases trigger with
  | none => exact hreports _
  | some text => exact isTimely_bind (isTimely_triggerOf text) fun trigger _ => hreports _

theorem isTimely_selectCorpus [Formats] (s : Selector) (byName : Bool) (level : Option String) :
    FailsWith IsTimely (selectCorpus w path s byName level) := by
  refine (isTimely_configOf w path).bind fun c _ => ?_
  have hcorpus : FailsWith IsTimely
      ((Corpus.load w.files c.planner.corpusPath).mapError CommandError.ofPlanner) :=
    .mapError isTimely_ofPlanner _
  cases level with
  | none => exact hcorpus.bind fun _ _ => failsWith_ok _
  | some text =>
      refine FailsWith.bind (.mapError (fun _ => id) _) fun level _ => ?_
      exact hcorpus.bind fun _ _ => failsWith_ok _

theorem isTimely_select [Formats] (expression : String) (scope : SelectScope) :
    (Result.ofExcept (Cli.select w path expression scope)).IsTimely := by
  have hshown : ∀ report, (Result.ofPage (.ofSelect report) (.ok ())).IsTimely :=
    fun _ => isTimely_ofPage (failsWith_ok ())
  refine isTimely_bind (.mapError (fun _ => id) _) fun s _ => ?_
  cases scope with
  | corpus byName level =>
      exact isTimely_bind (isTimely_selectCorpus w path s byName level) fun report _ =>
        hshown report
  | _ => exact hshown _

/-- The patterns of a loaded configuration can be used, with any times. -/
theorem isTimely_leakCheck [Formats] (profiles : List String) (once : Bool) :
    (Result.ofExcept (Cli.leakCheck w path profiles once)).IsTimely := by
  refine isTimely_bind (isTimely_configOf w path) fun c hc => ?_
  refine isTimely_bind (.mapError (fun _ => id) _) fun targets _ => ?_
  refine isTimely_bind ?_ fun checker _ =>
    isTimely_ofPage (isTimely_checkVerdict _)
  have husable := Config.isUsable_of_validate (w.validate_of_loadConfig (mapError_eq_ok.mp hc))
  have hchecker : ∃ checker, LeakChecker.ofConfig (.ofLauncher w.launch w.env)
      (if once = true then c.leakCheck.once else c.leakCheck) = .ok checker := by
    split
    · exact husable.once.checker _
    · exact husable.checker _
  obtain ⟨checker, hchecker⟩ := hchecker
  rw [hchecker, mapError_ok]
  exact failsWith_ok checker

/-- A loaded configuration can be carried out, so a run fails over its plan or its outcome. -/
theorem isTimely_run [Formats] (trigger : String) :
    (Result.ofExcept (Cli.run w path trigger)).IsTimely := by
  refine isTimely_bind (isTimely_triggerOf trigger) fun trigger _ => ?_
  refine isTimely_bind (isTimely_configOf w path) fun c hc => ?_
  refine isTimely_bind (isTimely_plannerOf w c) fun planner _ => ?_
  obtain ⟨o, ho⟩ :=
    w.exists_orchestratorOf_eq_ok (w.validate_of_loadConfig (mapError_eq_ok.mp hc))
  rw [ho, mapError_ok, ok_bind]
  rcases o.run_cases planner none trigger with ⟨-, course, hrun⟩ | ⟨-, hrun⟩
  · rw [hrun, mapError_ok, ok_bind]
    exact isTimely_ofPage (isTimely_checkReport course.report)
  · rw [hrun, mapError_error, error_bind]
    intro e he
    cases he
    show (CommandError.ofPlanner (PartitionReport.rejection _)).IsTimely
    exact isTimely_ofPlanner _

theorem isTimely_configValidate [Formats] : (Cli.configValidate w path).IsTimely := by
  refine isTimely_ofPage ?_
  split
  · exact failsWith_ok ()
  · exact failsWith_error id

theorem isTimely_configShow [Formats] (part : Option String) :
    (Result.ofExcept (Cli.configShow w path part)).IsTimely := by
  refine isTimely_bind (isTimely_configOf w path) fun c _ => ?_
  cases part with
  | none => exact isTimely_ofPage (failsWith_ok ())
  | some name =>
      dsimp only
      split
      · exact isTimely_ofPage (failsWith_ok ())
      · intro e he
        cases he
        exact id

theorem isTimely_execute [Formats] (i : Invocation) : (i.execute w).IsTimely := by
  rw [Invocation.execute]
  cases i.request with
  | plan trigger tests => exact isTimely_plan w _ trigger tests
  | verify trigger => exact isTimely_verify w _ trigger
  | select expression scope => exact isTimely_select w _ expression scope
  | leakCheck profiles once => exact isTimely_leakCheck w _ profiles once
  | run trigger => exact isTimely_run w _ trigger
  | configValidate => exact isTimely_configValidate w _
  | configShow part => exact isTimely_configShow w _ part

end Commands

/-! ## Validated configurations -/

/-- A configuration that passed its check can be used, also for a leak check that asks only once,
and so can what the programs load; no command ends with patterns or a test command that turn out not
to be usable.  The check of the leak check's settings ends with that of its patterns, which finds
the same faults as the parser of listings. -/
theorem validated_isUsable [Formats] :
    (∀ c : Config, c.validate = .ok () → c.IsUsable ∧ c.once.IsUsable) ∧
    (∀ (w : World) (path : String) (c : Config), w.loadConfig path = .ok c →
      c.IsUsable ∧ c.once.IsUsable) ∧
    (∀ (w : World) (i : Batch.Invocation) (c : Config), Batch.settings w i = .ok c → c.IsUsable) ∧
    (∀ (w : World) (i : Invocation), (i.execute w).IsTimely) ∧
    (∀ c : LeakCheckConfig, c.validate = (do
      c.validateTimes
      validatePatterns c.statusLinePattern c.resourcePattern)) ∧
    ∀ (linePattern resourcePattern : String) (runningStates : List String),
      PatternChecksAgree linePattern resourcePattern runningStates := by
  have husable : ∀ c : Config, c.validate = .ok () → c.IsUsable ∧ c.once.IsUsable := by
    intro c h
    have hc := Config.isUsable_of_validate h
    exact ⟨hc, hc.once⟩
  refine ⟨husable, fun w path c h => husable c (w.validate_of_loadConfig h), fun w i c h => ?_,
    fun w i => isTimely_execute w i, LeakCheckConfig.validate_eq, patternChecks_agree⟩
  obtain ⟨hlogs, file, hfile, rfl⟩ := (Batch.settings_eq_ok_iff w).mp h
  have hvalid := (Batch.validate_withLogging (w.validate_of_loadConfig hfile) _ _).mpr hlogs
  exact (husable _ hvalid).1

/-- A machine on which every file is empty. -/
def blankWorld : World where
  files _ := .ok ⟨0, .ok ""⟩
  env _ := none
  launch _ _ _ := .error (.spawn .notFound)
  style := ⟨"", fun _ => "", fun _ => ""⟩

theorem validated_isUsable_default :
    Config.default.validate = .ok () ∧ blankWorld.loadConfig "testgate.toml" = .ok .default ∧
      Batch.settings blankWorld ⟨"testgate.toml", "schedule", none, none, true⟩ = .ok .default ∧
      Config.default.IsUsable ∧ Config.default.once.IsUsable := by
  have hload : blankWorld.loadConfig "testgate.toml" = .ok .default := rfl
  have hsettings : Batch.settings blankWorld ⟨"testgate.toml", "schedule", none, none, true⟩ =
      .ok .default := rfl
  obtain ⟨hvalidated, -, hset, -⟩ := validated_isUsable
  exact ⟨Config.validate_default, hload, hsettings, hset _ _ _ hsettings,
    (hvalidated _ Config.validate_default).2⟩

end Cli

end CiPlan
