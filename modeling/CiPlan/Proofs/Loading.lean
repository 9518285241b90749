import CiPlan.Proofs.Override
import CiPlan.Proofs.Setup

/-!
# The order of loading

A configuration comes from a file, is changed by the environment, and is checked.
`Config.loadInOrder` does these steps in this order.  `Config.load` checks the file by itself as
well, before the environment is applied, so that it refuses a file of which the environment makes a
valid configuration.

How many files that are is settled by `Config.exists_validate_override_iff`: the environment can
repair everything in a file but its pattern of status lines and the names of its profiles, for which
there are no variables.  As the readers may be any, the text of that pattern is the one text that is
known to be a pattern, and it will do for the pattern of resources too.

Main result: `Config.load_checksFileFirst`.
-/

namespace CiPlan

/-! ## Names of profiles -/

/-- The names of profiles pass when none is empty and none repeats another or one that was seen. -/
theorem validateNames_eq_ok_iff (profiles : List Profile) : ∀ seen : List String,
    validateNames seen profiles = .ok () ↔ (∀ p ∈ profiles, p.name ≠ "") ∧
      (∀ p ∈ profiles, p.name ∉ seen) ∧ (profiles.map (·.name)).Nodup := by
  induction profiles with
  | nil =>
      intro seen
      simp [validateNames]
  | cons p profiles ih =>
      intro seen
      have hname : (!p.name.isEmpty) = true ↔ p.name ≠ "" := by
        rw [Bool.not_eq_true', ← Bool.not_eq_true, String.isEmpty_iff]
      have hseen : (!seen.contains p.name) = true ↔ p.name ∉ seen := by
        rw [Bool.not_eq_true', ← Bool.not_eq_true, List.contains_iff_mem]
      have hrest : (∀ q ∈ profiles, q.name ∉ p.name :: seen) ↔
          p.name ∉ profiles.map (·.name) ∧ ∀ q ∈ profiles, q.name ∉ seen := by
        simp only [List.mem_cons, not_or, List.mem_map, not_exists, not_and, forall_and]
      rw [validateNames]
      simp only [bind_eq_ok, require_eq_ok, exists_const, ih, hname, hseen, hrest]
      rw [List.forall_mem_cons, List.forall_mem_cons, List.map_cons, List.nodup_cons]
      tauto

/-! ## What the environment can repair -/

namespace Setting

/-- A text for a setting, which spells what it is when nothing is said. -/
def defaultText : Setting → String
  | logLevel => "info"
  | logFormat => "json"
  | matrixPath => ""
  | corpusPath => "tests/corpus.yml"
  | taxonomy => ",".intercalate defaultTaxonomy
  | command => "pytest,-v"
  | testPath => "tests"
  | maxParallel => "8"
  | defaultTimeoutSecs => "3600"
  | enabled => "true"
  | initialDelaySecs => "30"
  | pollIntervalSecs => "15"
  | maxPollIntervalSecs => "120"
  | maxWaitSecs => "900"
  | queryTimeoutSecs => "120"
  | runningStates => "UP,INIT"
  | resourcePattern => ".*"
  | statusLinePattern => ""

theorem read_defaultText {s : Setting} (hs : s ≠ statusLinePattern) :
    s.kind.read s.defaultText = some (s.of .default) := by
  cases s with
  | statusLinePattern => exact absurd rfl hs
  | _ => rfl

/-- The same, with a given pattern of resources. -/
def repairText (pattern : String) : Setting → String
  | resourcePattern => pattern
  | s => s.defaultText

/-- The variables that give every setting this text. -/
def repairVariables (pattern : String) : Environment := fun name =>
  (every.find? fun s => s.envName == name).map (repairText pattern)

theorem repairVariables_envName (pattern : String) (s : Setting) :
    repairVariables pattern s.envName = some (s.repairText pattern) := by
  rw [repairVariables]
  cases hfind : every.find? fun t => t.envName == s.envName with
  | none => exact absurd (beq_self_eq_true s.envName) (List.find?_eq_none.mp hfind s s.mem_every)
  | some t =>
      have hname := List.find?_some hfind
      rw [envName_injective (beq_iff_eq.mp hname)]
      rfl

end Setting

namespace Config

/-- A configuration with nothing of its own but what has no variable, and with its pattern of status
lines for both patterns. -/
def reset (c : Config) : Config where
  general := .default
  planner := .default
  runner := .default
  leakCheck :=
    { LeakCheckConfig.default with
      resourcePattern := c.leakCheck.statusLinePattern
      statusLinePattern := c.leakCheck.statusLinePattern }
  profiles := c.profiles

theorem read_repairText {s : Setting} (hs : s ≠ .statusLinePattern) (c : Config) :
    s.kind.read (s.repairText c.leakCheck.statusLinePattern) = some (s.of c.reset) := by
  cases s with
  | statusLinePattern => exact absurd rfl hs
  | resourcePattern => rfl
  | _ => exact Setting.read_defaultText hs

theorem override_repairVariables (c : Config) :
    c.override (Setting.repairVariables c.leakCheck.statusLinePattern) = c.reset := by
  refine eq_of_settings (fun s => ?_) rfl
  by_cases hs : s = .statusLinePattern
  · rw [hs]
    exact Setting.of_override_statusLinePattern _ c
  · rw [Setting.of_override _ c hs, Setting.repairVariables_envName]
    exact congrArg (Option.getD · _) (read_repairText hs c)

/-- What has no variable is in order: the pattern of status lines and the names of the profiles. -/
structure IsRepairable [Formats] (c : Config) : Prop where
  pattern : IsStatusPattern c.leakCheck.statusLinePattern
  named : ∀ p ∈ c.profiles, p.name ≠ ""
  distinct : (c.profiles.map (·.name)).Nodup

/-- A valid configuration has all that in order. -/
theorem isRepairable_of_validate [Formats] {c : Config} (h : c.validate = .ok ()) :
    c.IsRepairable := by
  have hleakCheck := leakCheck_of_validate h
  rw [LeakCheckConfig.validate_eq] at hleakCheck
  obtain ⟨⟨⟩, -, hpatterns⟩ := bind_eq_ok.mp hleakCheck
  simp only [validate, bind_eq_ok] at h
  obtain ⟨-, -, -, -, -, -, -, -, hnames⟩ := h
  obtain ⟨hnamed, -, hdistinct⟩ := (validateNames_eq_ok_iff c.profiles []).mp hnames
  exact ⟨(validatePatterns_eq_ok_iff.mp hpatterns).1, hnamed, hdistinct⟩

/-- The rest is in order when nothing is said of it. -/
theorem validate_reset [Formats] {c : Config} (h : c.IsRepairable) :
    c.reset.validate = .ok () := by
  have hresource : ∃ resource, Formats.pattern c.leakCheck.statusLinePattern = .ok resource := by
    obtain ⟨line, hline, -⟩ := h.pattern
    exact ⟨line, hline⟩
  have hleakCheck : c.reset.leakCheck.validate = .ok () := by
    rw [LeakCheckConfig.validate_eq]
    exact bind_eq_ok.mpr ⟨(), rfl, validatePatterns_eq_ok_iff.mpr ⟨h.pattern, hresource⟩⟩
  have hnames : validateNames [] c.profiles = .ok () :=
    (validateNames_eq_ok_iff c.profiles []).mpr ⟨h.named, fun _ _ => List.not_mem_nil, h.distinct⟩
  rw [validate]
  exact bind_eq_ok.mpr ⟨(), rfl, bind_eq_ok.mpr ⟨(), rfl, bind_eq_ok.mpr ⟨(), rfl,
    bind_eq_ok.mpr ⟨(), hleakCheck, hnames⟩⟩⟩⟩

/-- Some environment makes a configuration valid when all that has no variable is in order. -/
theorem exists_validate_override_iff [Formats] {c : Config} :
    (∃ env, (c.override env).validate = .ok ()) ↔ c.IsRepairable := by
  constructor
  · rintro ⟨env, h⟩
    obtain ⟨hpattern, hnamed, hdistinct⟩ := isRepairable_of_validate h
    exact ⟨hpattern, hnamed, hdistinct⟩
  · intro h
    refine ⟨Setting.repairVariables c.leakCheck.statusLinePattern, ?_⟩
    rw [override_repairVariables]
    exact validate_reset h

/-! ## Loading -/

/-- The configuration of a file under an environment, with one check at the end. -/
def loadInOrder [Formats] (env : Environment) (text : String) : Except ConfigError Config := do
  let c ← parse text
  (c.override env).validate
  return c.override env

section Loading

variable {env : Environment} {text : String}

theorem loadInOrder_eq_ok_iff [Formats] {c : Config} :
    loadInOrder env text = .ok c ↔ ∃ file, parse text = .ok file ∧
      (file.override env).validate = .ok () ∧ c = file.override env := by
  simp only [loadInOrder, bind_eq_ok]
  constructor
  · rintro ⟨file, hparse, ⟨⟩, hvalid, h⟩
    cases h
    exact ⟨file, hparse, hvalid, rfl⟩
  · rintro ⟨file, hparse, hvalid, rfl⟩
    exact ⟨file, hparse, (), hvalid, rfl⟩

/-- Loading is loading in order after a check of the file by itself. -/
theorem load_eq [Formats] {file : Config} (hparse : parse text = .ok file) :
    load env text = (do
      file.validate
      loadInOrder env text) := by
  rw [load, loadInOrder, hparse]
  rfl

theorem load_of_parse_error [Formats] {e : ConfigError} (hparse : parse text = .error e) :
    load env text = .error e ∧ loadInOrder env text = .error e := by
  rw [load, loadInOrder, hparse]
  exact ⟨rfl, rfl⟩

theorem load_eq_ok_iff [Formats] {c : Config} :
    load env text = .ok c ↔ ∃ file, parse text = .ok file ∧ file.validate = .ok () ∧
      (file.override env).validate = .ok () ∧ c = file.override env := by
  cases hparse : parse text with
  | error e => simp [load_of_parse_error hparse]
  | ok file =>
      rw [load_eq hparse, bind_eq_ok, loadInOrder_eq_ok_iff]
      simp only [hparse, Except.ok.injEq, exists_eq_left', Unique.exists_iff]

/-- A file that is not valid by itself is refused over what is wrong with it, under any
environment. -/
theorem load_of_invalid [Formats] {file : Config} {e : ConfigError} (hparse : parse text = .ok file)
    (hinvalid : file.validate = .error e) : load env text = .error e := by
  rw [load_eq hparse, hinvalid, error_bind]

theorem load_of_valid [Formats] {file : Config} (hparse : parse text = .ok file)
    (hvalid : file.validate = .ok ()) : load env text = loadInOrder env text := by
  rw [load_eq hparse, hvalid, ok_bind]

theorem loadInOrder_eq_error_iff [Formats] {file : Config} {e : ConfigError}
    (hparse : parse text = .ok file) :
    loadInOrder env text = .error e ↔ (file.override env).validate = .error e := by
  rw [loadInOrder, hparse, ok_bind]
  cases (file.override env).validate with
  | ok => exact ⟨nofun, nofun⟩
  | error reason => simp

end Loading

/-- Loading checks a file before the environment is applied, and the result again.  So it is loading
in order just when a file that is not valid by itself stays so, for the same reason; and a file that
is not valid by itself is refused under every environment, also where some environment makes it
valid, which is when its pattern of status lines and the names of its profiles are in order. -/
theorem load_checksFileFirst [Formats] (env : Environment) (text : String) :
    (∀ c, load env text = .ok c ↔ ∃ file, parse text = .ok file ∧ file.validate = .ok () ∧
      (file.override env).validate = .ok () ∧ c = file.override env) ∧
    (∀ c, loadInOrder env text = .ok c ↔ ∃ file, parse text = .ok file ∧
      (file.override env).validate = .ok () ∧ c = file.override env) ∧
    (load env text = loadInOrder env text ↔ ∀ file e, parse text = .ok file →
      file.validate = .error e → (file.override env).validate = .error e) ∧
    ∀ file e, parse text = .ok file → file.validate = .error e →
      load env text = .error e ∧
        ((∃ env' c, loadInOrder env' text = .ok c) ↔
          IsStatusPattern file.leakCheck.statusLinePattern ∧ (∀ p ∈ file.profiles, p.name ≠ "") ∧
            (file.profiles.map (·.name)).Nodup) := by
  refine ⟨fun c => load_eq_ok_iff, fun c => loadInOrder_eq_ok_iff, ?_, fun file e hparse hinvalid =>
    ⟨load_of_invalid hparse hinvalid, ?_⟩⟩
  · constructor
    · intro h file e hparse hinvalid
      exact (loadInOrder_eq_error_iff hparse).mp (h.symm.trans (load_of_invalid hparse hinvalid))
    · intro h
      cases hparse : parse text with
      | error e => rw [(load_of_parse_error hparse).1, (load_of_parse_error hparse).2]
      | ok file =>
          cases hvalid : file.validate with
          | ok => exact load_of_valid hparse hvalid
          | error e =>
              have hrefused := (loadInOrder_eq_error_iff hparse).mpr (h file e hparse hvalid)
              rw [load_of_invalid hparse hvalid, hrefused]
  · constructor
    · rintro ⟨env', c, h⟩
      obtain ⟨file', hparse', hvalid, -⟩ := loadInOrder_eq_ok_iff.mp h
      cases hparse.symm.trans hparse'
      obtain ⟨hpattern, hnamed, hdistinct⟩ := exists_validate_override_iff.mp ⟨env', hvalid⟩
      exact ⟨hpattern, hnamed, hdistinct⟩
    · rintro ⟨hpattern, hnamed, hdistinct⟩
      obtain ⟨env', hvalid⟩ := exists_validate_override_iff.mpr ⟨hpattern, hnamed, hdistinct⟩
      exact ⟨env', _, loadInOrder_eq_ok_iff.mpr ⟨file, hparse, hvalid, rfl⟩⟩

/-- A file that allows no bucket at all to run. -/
def idleFile : String := "[runner]\nmax_parallel = 0\n"

/-- The file as a configuration. -/
def idle : Config :=
  { Config.default with runner := { RunnerConfig.default with maxParallel := 0 } }

/-- An environment that allows four buckets at a time. -/
def fourAtATime : Environment := fun name => [("TESTGATE_RUNNER_MAX_PARALLEL", "4")].lookup name

theorem load_checksFileFirst_idle :
    parse idleFile = .ok idle ∧
      idle.validate = .error (.invalidValue "runner.max_parallel" (.outside 1 64)) ∧
      load fourAtATime idleFile = .error (.invalidValue "runner.max_parallel" (.outside 1 64)) := by
  have hparse : parse idleFile = .ok idle := by decide +kernel
  have hinvalid : idle.validate = .error (.invalidValue "runner.max_parallel" (.outside 1 64)) := by
    decide +kernel
  exact ⟨hparse, hinvalid,
    ((load_checksFileFirst fourAtATime idleFile).2.2.2 idle _ hparse hinvalid).1⟩

/-- The environment repairs the file, and yet the file is refused. -/
theorem load_refuses_repaired :
    (∃ c, loadInOrder fourAtATime idleFile = .ok c ∧ c.runner.maxParallel = 4) ∧
      ¬ ∃ c, load fourAtATime idleFile = .ok c := by
  have hrefused : load fourAtATime idleFile =
      .error (.invalidValue "runner.max_parallel" (.outside 1 64)) := by
    decide +kernel
  have hrepaired : loadInOrder fourAtATime idleFile = .ok (idle.override fourAtATime) := by
    decide +kernel
  refine ⟨⟨idle.override fourAtATime, hrepaired, by decide +kernel⟩, ?_⟩
  rintro ⟨c, h⟩
  cases hrefused.symm.trans h

end Config

end CiPlan
