import CiPlan.Cli.Batch
import CiPlan.Proofs.Patterns

/-!
# From a configuration to an orchestrator

A configuration that could be loaded has passed its check, and what passed the check can be carried
out: there is a test command, and the patterns of the leak check can be used, so that all that is made
of a configuration can be made (`Config.isUsable_of_validate`).  The batch program lets an invocation
change how it logs, and checks the result again; this can fail over the logging only
(`Batch.settings_eq_ok_iff`).
-/

namespace CiPlan

/-- A configuration that was loaded is valid. -/
theorem Config.validate_of_load [Formats] {env : Environment} {text : String} {c : Config}
    (h : Config.load env text = .ok c) : c.validate = .ok () := by
  obtain ⟨_, -, h⟩ := bind_eq_ok.mp h
  obtain ⟨_, -, h⟩ := bind_eq_ok.mp h
  obtain ⟨⟨⟩, hvalid, h⟩ := bind_eq_ok.mp h
  cases h
  exact hvalid

/-- The patterns of a validated leak check can be used. -/
theorem StatusParser.exists_ofConfig_eq_ok [Formats] {c : LeakCheckConfig} (h : c.validate = .ok ()) :
    ∃ parser, StatusParser.ofConfig c = .ok parser := by
  rw [LeakCheckConfig.validate_eq] at h
  obtain ⟨⟨⟩, -, hpatterns⟩ := bind_eq_ok.mp h
  exact (patternChecks_agree _ _ c.runningStates).accepts.mp hpatterns

/-- There is a test command in a validated configuration. -/
theorem TestCommand.exists_ofConfig_eq_ok [Formats] {c : Config} (h : c.validate = .ok ()) :
    ∃ command, TestCommand.ofConfig c.runner = .ok command := by
  simp only [Config.validate, bind_eq_ok, RunnerConfig.validate, require_eq_ok] at h
  obtain ⟨-, -, -, -, -, ⟨-, hcommand, -⟩, -⟩ := h
  rw [ofConfig]
  cases hwords : c.runner.command with
  | nil =>
      rw [hwords] at hcommand
      cases hcommand
  | cons program arguments => exact ⟨⟨program, arguments, c.runner.testPath⟩, rfl⟩

/-- All that is made of a configuration can be made. -/
structure Config.IsUsable [Formats] (c : Config) : Prop where
  parser : ∃ parser, StatusParser.ofConfig c.leakCheck = .ok parser
  checker : ∀ client, ∃ checker, LeakChecker.ofConfig client c.leakCheck = .ok checker
  command : ∃ command, TestCommand.ofConfig c.runner = .ok command
  orchestrator : ∀ executor client, ∃ o, Orchestrator.ofConfig executor client c = .ok o
  /-- So can the orchestrator that runs the commands of a machine. -/
  machine : ∀ w : Cli.World, ∃ o, w.orchestratorOf c = .ok o

/-- There is nothing else to a usable configuration than its patterns and its test command. -/
theorem Config.isUsable_of [Formats] {c : Config}
    (hparser : ∃ parser, StatusParser.ofConfig c.leakCheck = .ok parser)
    (hcommand : ∃ command, TestCommand.ofConfig c.runner = .ok command) : c.IsUsable := by
  obtain ⟨parser, hparser⟩ := hparser
  obtain ⟨command, hcommand⟩ := hcommand
  have hchecker : ∀ client, LeakChecker.ofConfig client c.leakCheck =
      .ok ⟨parser, .ofConfig c.leakCheck, client⟩ := fun client =>
    bind_eq_ok.mpr ⟨parser, hparser, rfl⟩
  have horchestrator : ∀ executor client, ∃ o, Orchestrator.ofConfig executor client c = .ok o :=
    fun executor client => ⟨_, bind_eq_ok.mpr ⟨_, mapError_eq_ok.mpr (hchecker client), rfl⟩⟩
  refine ⟨⟨parser, hparser⟩, fun client => ⟨_, hchecker client⟩, ⟨command, hcommand⟩,
    horchestrator, fun w => ?_⟩
  obtain ⟨o, ho⟩ := horchestrator (command.run w.launch w.env) (.ofLauncher w.launch w.env)
  exact ⟨o, bind_eq_ok.mpr ⟨command, hcommand, ho⟩⟩

/-- A validated configuration can be used. -/
theorem Config.isUsable_of_validate [Formats] {c : Config} (h : c.validate = .ok ()) : c.IsUsable :=
  isUsable_of (StatusParser.exists_ofConfig_eq_ok (leakCheck_of_validate h))
    (TestCommand.exists_ofConfig_eq_ok h)

namespace Cli

variable (w : World)

theorem World.validate_of_loadConfig [Formats] {path : String} {c : Config}
    (h : w.loadConfig path = .ok c) : c.validate = .ok () := by
  obtain ⟨_, -, h⟩ := bind_eq_ok.mp h
  obtain ⟨_, -, h⟩ := bind_eq_ok.mp h
  exact Config.validate_of_load (mapError_eq_ok.mp h)

/-- A validated configuration can be carried out. -/
theorem World.exists_orchestratorOf_eq_ok [Formats] {c : Config} (h : c.validate = .ok ()) :
    ∃ o, w.orchestratorOf c = .ok o :=
  (Config.isUsable_of_validate h).machine w

namespace Batch

/-- An invocation asks for a way of logging that there is. -/
def Invocation.LogsAllowed (i : Invocation) : Prop :=
  i.logLevel.all logLevels.contains = true ∧ i.logFormat.all logFormats.contains = true

/-- The logging of a validated configuration may be changed to any that there is. -/
theorem validate_withLogging [Formats] {c : Config} (h : c.validate = .ok ())
    (level format : Option String) :
    { c with general := c.general.withLogging level format }.validate = .ok () ↔
      level.all logLevels.contains = true ∧ format.all logFormats.contains = true := by
  simp only [Config.validate, bind_eq_ok, GeneralConfig.validate, require_eq_ok,
    exists_const] at h ⊢
  obtain ⟨⟨hlevel, hformat⟩, hrest⟩ := h
  have hgiven : ∀ (given : Option String) (allowed : List String) (set : String),
      allowed.contains set = true →
        (allowed.contains (given.getD set) = true ↔ given.all allowed.contains = true) := by
    intro given allowed set hset
    cases given with
    | none => simpa using hset
    | some text => exact Iff.rfl
  constructor
  · rintro ⟨⟨hlevel', hformat'⟩, -⟩
    exact ⟨(hgiven level _ _ hlevel).mp hlevel', (hgiven format _ _ hformat).mp hformat'⟩
  · rintro ⟨hlevel', hformat'⟩
    exact ⟨⟨(hgiven level _ _ hlevel).mpr hlevel', (hgiven format _ _ hformat).mpr hformat'⟩,
      hrest⟩

/-- The settings of an invocation are those of its file, with the logging that it asks for. -/
theorem settings_eq_ok_iff [Formats] {i : Invocation} {c : Config} :
    settings w i = .ok c ↔ i.LogsAllowed ∧ ∃ file, w.loadConfig i.configPath = .ok file ∧
      c = { file with general := file.general.withLogging i.logLevel i.logFormat } := by
  constructor
  · intro h
    obtain ⟨file, hfile, h⟩ := bind_eq_ok.mp h
    obtain ⟨⟨⟩, hvalid, h⟩ := bind_eq_ok.mp h
    cases h
    have hload := mapError_eq_ok.mp hfile
    exact ⟨(validate_withLogging (w.validate_of_loadConfig hload) _ _).mp
      (mapError_eq_ok.mp hvalid), file, hload, rfl⟩
  · rintro ⟨hlogs, file, hload, rfl⟩
    have hvalid := (validate_withLogging (w.validate_of_loadConfig hload) _ _).mpr hlogs
    exact bind_eq_ok.mpr ⟨file, mapError_eq_ok.mpr hload,
      bind_eq_ok.mpr ⟨(), mapError_eq_ok.mpr hvalid, rfl⟩⟩

end Batch

end Cli

end CiPlan
