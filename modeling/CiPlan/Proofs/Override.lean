import CiPlan.Config.Environment
import Mathlib.Data.List.Nodup
import Mathlib.Logic.Function.Basic

/-!
# Settings and their variables

Every setting has a variable that is named after its place in the file: the section and the name of
the setting, in upper case.  `Setting` lists the settings, so that statements can be made about all
of them; that none is missing is `Config.fields_eq`, by which the written form of a configuration
consists of its settings and its profiles.

* `SettingKind.read_eq_some_iff`: a text is read as the value that it spells.
* `Setting.of_override`: a setting under an environment, by its own variable.
* `Setting.envName_injective`: no two settings share a variable.

Main result: `Config.override_fieldwise`.  The pattern of status lines has no variable, although its
name would be free; `Config.override_misses_statusLinePattern` shows it.
-/

namespace CiPlan

open Environment

/-! ## Kinds of settings -/

/-- The kinds of settings. -/
inductive SettingKind where
  | text
  | switch
  | count
  | list

namespace SettingKind

/-- What a setting of the kind can be. -/
def Value : SettingKind → Type
  | text => String
  | switch => Bool
  | count => UInt64
  | list => List String

/-- A value as it is written in a file. -/
def write : (kind : SettingKind) → kind.Value → Json
  | text => Json.str
  | switch => Json.bool
  | count => Json.u64
  | list => Json.strs

/-- The text spells a number in decimal digits, of which there is at least one.  A plus may stand
before them. -/
def SpellsNumber (spelled : String) (n : Nat) : Prop :=
  ∃ digits : List Char, (spelled.toList = digits ∨ spelled.toList = '+' :: digits) ∧ digits ≠ [] ∧
    (∀ d ∈ digits, d.isDigit = true) ∧ Nat.ofDigitChars 10 digits 0 = n

/-- What stands between the commas of a text, without the blanks around it and without what has
nothing but blanks. -/
def itemsOf (spelled : String) : List String :=
  ((spelled.toList.splitOn ',').map fun item => Text.trim (String.ofList item)).filter (· ≠ "")

/-- A text spells a value of the kind. -/
def Spells : (kind : SettingKind) → String → kind.Value → Prop
  | text, spelled, value => value = spelled
  | switch, spelled, value => spelled = cond value "true" "false"
  | count, spelled, value => SpellsNumber spelled (UInt64.toNat value)
  | list, spelled, value => value = itemsOf spelled

/-- How a text of the kind is read. -/
def read : (kind : SettingKind) → String → Option kind.Value
  | text => some
  | switch => bool?
  | count => count?
  | list => some ∘ items

theorem bool?_eq_some_iff {spelled : String} {value : Bool} :
    bool? spelled = some value ↔ spelled = cond value "true" "false" := by
  unfold bool?
  split
  · cases value <;> simp
  · cases value <;> simp
  · cases value <;> simp_all

/-- The characters without a plus in front. -/
def withoutPlus : List Char → List Char
  | '+' :: rest => rest
  | cs => cs

/-- A plus is no digit, so it is clear which characters are the digits. -/
theorem withoutPlus_eq_iff {cs digits : List Char} (hdigits : ∀ d ∈ digits, d.isDigit = true) :
    withoutPlus cs = digits ↔ cs = digits ∨ cs = '+' :: digits := by
  have hplus : ∀ rest, digits ≠ '+' :: rest := by
    rintro rest rfl
    exact absurd (hdigits '+' List.mem_cons_self) (by decide)
  unfold withoutPlus
  split
  · next rest =>
    constructor
    · rintro rfl
      exact .inr rfl
    · rintro (h | h)
      · exact absurd h.symm (hplus rest)
      · exact List.tail_eq_of_cons_eq h
  · next hother =>
    constructor
    · exact .inl
    · rintro (h | h)
      · exact h
      · exact absurd h (hother digits)

theorem count?_eq (spelled : String) :
    count? spelled =
      if !(withoutPlus spelled.toList).isEmpty && (withoutPlus spelled.toList).all Char.isDigit then
        if h : Nat.ofDigitChars 10 (withoutPlus spelled.toList) 0 < UInt64.size then
          some (UInt64.ofNatLT _ h)
        else none
      else none :=
  rfl

theorem count?_eq_some_iff {spelled : String} {value : UInt64} :
    count? spelled = some value ↔ SpellsNumber spelled value.toNat := by
  rw [count?_eq]
  constructor
  · intro h
    split at h
    · next hread =>
      simp only [Bool.and_eq_true, Bool.not_eq_true', List.isEmpty_eq_false_iff,
        List.all_eq_true] at hread
      obtain ⟨hne, hdigits⟩ := hread
      split at h
      · cases h
        exact ⟨_, (withoutPlus_eq_iff hdigits).mp rfl, hne, hdigits, rfl⟩
      · cases h
    · cases h
  · rintro ⟨digits, hspelled, hne, hdigits, hvalue⟩
    have hlt : Nat.ofDigitChars 10 digits 0 < UInt64.size := hvalue ▸ value.toNat_lt_size
    rw [(withoutPlus_eq_iff hdigits).mpr hspelled, if_pos (by simpa [hne] using hdigits),
      dif_pos hlt]
    exact congrArg some (UInt64.toNat_inj.mp hvalue)

theorem splitAt_eq_splitOnPPrepend (separator : Char) (cs : List Char) :
    ∀ acc, splitAt separator acc cs = cs.splitOnPPrepend (· == separator) acc := by
  induction cs with
  | nil => exact fun _ => rfl
  | cons c cs ih =>
      intro acc
      rw [List.splitOnPPrepend_cons_eq_if, List.splitOnP_eq_splitOnPPrepend, splitAt, ih, ih]

theorem items_eq (spelled : String) : items spelled = itemsOf spelled := by
  have hsplit : splitAt ',' [] spelled.toList = spelled.toList.splitOn ',' := by
    rw [splitAt_eq_splitOnPPrepend, List.splitOn_eq_splitOnP, List.splitOnP_eq_splitOnPPrepend]
  have hitem : (fun item => String.ofList (Text.trimChars item)) =
      fun item => Text.trim (String.ofList item) := by
    funext item
    rw [Text.trim, String.toList_ofList]
  rw [items, itemsOf, hsplit, hitem]
  refine List.filter_congr fun item _ => ?_
  rw [Bool.eq_iff_iff]
  simp

/-- A text is read as the value that it spells. -/
theorem read_eq_some_iff : (kind : SettingKind) → {spelled : String} → {value : kind.Value} →
    (kind.read spelled = some value ↔ kind.Spells spelled value)
  | text, _, _ => ⟨fun h => (Option.some.inj h).symm, fun h => congrArg some h.symm⟩
  | switch, _, _ => bool?_eq_some_iff
  | count, _, _ => count?_eq_some_iff
  | list, spelled, _ =>
    ⟨fun h => (Option.some.inj h).symm.trans (items_eq spelled),
      fun h => congrArg some ((items_eq spelled).trans h.symm)⟩

end SettingKind

/-! ## Settings -/

/-- The sections of settings. -/
inductive ConfigPart where
  | general
  | planner
  | runner
  | leakCheck
  deriving DecidableEq

/-- The name of a section in a file. -/
def ConfigPart.name : ConfigPart → String
  | general => "general"
  | planner => "planner"
  | runner => "runner"
  | leakCheck => "leak_check"

/-- The settings. -/
inductive Setting where
  | logLevel
  | logFormat
  | matrixPath
  | corpusPath
  | taxonomy
  | command
  | testPath
  | maxParallel
  | defaultTimeoutSecs
  | enabled
  | initialDelaySecs
  | pollIntervalSecs
  | maxPollIntervalSecs
  | maxWaitSecs
  | queryTimeoutSecs
  | runningStates
  | resourcePattern
  | statusLinePattern
  deriving DecidableEq

namespace Setting

/-- Every setting, in the order in which they are written. -/
def every : List Setting :=
  [logLevel, logFormat, matrixPath, corpusPath, taxonomy, command, testPath, maxParallel,
    defaultTimeoutSecs, enabled, initialDelaySecs, pollIntervalSecs, maxPollIntervalSecs,
    maxWaitSecs, queryTimeoutSecs, runningStates, resourcePattern, statusLinePattern]

theorem mem_every (s : Setting) : s ∈ every := by
  cases s <;> decide

/-- The section of a setting. -/
def part : Setting → ConfigPart
  | logLevel | logFormat => .general
  | matrixPath | corpusPath | taxonomy => .planner
  | command | testPath | maxParallel | defaultTimeoutSecs => .runner
  | _ => .leakCheck

/-- The name of a setting in its section of a file. -/
def name : Setting → String
  | logLevel => "log_level"
  | logFormat => "log_format"
  | matrixPath => "matrix_path"
  | corpusPath => "corpus_path"
  | taxonomy => "taxonomy"
  | command => "pytest_command"
  | testPath => "test_path"
  | maxParallel => "max_parallel"
  | defaultTimeoutSecs => "default_timeout_secs"
  | enabled => "enabled"
  | initialDelaySecs => "initial_delay_secs"
  | pollIntervalSecs => "poll_interval_secs"
  | maxPollIntervalSecs => "max_poll_interval_secs"
  | maxWaitSecs => "max_wait_secs"
  | queryTimeoutSecs => "query_timeout_secs"
  | runningStates => "running_states"
  | resourcePattern => "resource_pattern"
  | statusLinePattern => "status_line_pattern"

def kind : Setting → SettingKind
  | logLevel | logFormat | matrixPath | corpusPath | testPath | resourcePattern
  | statusLinePattern => .text
  | enabled => .switch
  | taxonomy | command | runningStates => .list
  | maxParallel | defaultTimeoutSecs | initialDelaySecs | pollIntervalSecs | maxPollIntervalSecs
  | maxWaitSecs | queryTimeoutSecs => .count

/-- What a configuration says of a setting. -/
def of (c : Config) : (s : Setting) → s.kind.Value
  | logLevel => c.general.logLevel
  | logFormat => c.general.logFormat
  | matrixPath => c.planner.matrixPath
  | corpusPath => c.planner.corpusPath
  | taxonomy => c.planner.taxonomy
  | command => c.runner.command
  | testPath => c.runner.testPath
  | maxParallel => c.runner.maxParallel
  | defaultTimeoutSecs => c.runner.defaultTimeoutSecs
  | enabled => c.leakCheck.enabled
  | initialDelaySecs => c.leakCheck.initialDelaySecs
  | pollIntervalSecs => c.leakCheck.pollIntervalSecs
  | maxPollIntervalSecs => c.leakCheck.maxPollIntervalSecs
  | maxWaitSecs => c.leakCheck.maxWaitSecs
  | queryTimeoutSecs => c.leakCheck.queryTimeoutSecs
  | runningStates => c.leakCheck.runningStates
  | resourcePattern => c.leakCheck.resourcePattern
  | statusLinePattern => c.leakCheck.statusLinePattern

/-- A name in upper case. -/
def upper (name : String) : String :=
  String.ofList (name.toList.map Text.upperAscii)

/-- The variable of a setting. -/
def envName (s : Setting) : String :=
  "TESTGATE_" ++ upper s.part.name ++ "_" ++ upper s.name

/-- No two settings share a variable. -/
theorem envName_injective {s t : Setting} (h : s.envName = t.envName) : s = t := by
  have hnodup : (every.map Setting.envName).Nodup := by decide +kernel
  exact List.inj_on_of_nodup_map hnodup s.mem_every t.mem_every h

end Setting

/-! ## Configurations and their settings -/

/-- A section as it is written: its settings under their names. -/
def ConfigPart.written (c : Config) (part : ConfigPart) : String × Json :=
  (part.name, .obj ((Setting.every.filter (·.part = part)).map fun s =>
    (s.name, s.kind.write (s.of c))))

/-- The written form of a configuration consists of its settings and its profiles. -/
theorem Config.fields_eq (c : Config) :
    c.fields = [ConfigPart.general, .planner, .runner, .leakCheck].map (·.written c) ++
      [("profiles", .arr (c.profiles.map Profile.toJson))] :=
  rfl

/-- The configuration with some settings and profiles. -/
def Config.ofSettings (value : (s : Setting) → s.kind.Value) (profiles : List Profile) :
    Config where
  general := ⟨value .logLevel, value .logFormat⟩
  planner := ⟨value .matrixPath, value .corpusPath, value .taxonomy⟩
  runner := ⟨value .command, value .testPath, value .maxParallel, value .defaultTimeoutSecs⟩
  leakCheck := ⟨value .enabled, value .initialDelaySecs, value .pollIntervalSecs,
    value .maxPollIntervalSecs, value .maxWaitSecs, value .queryTimeoutSecs, value .runningStates,
    value .resourcePattern, value .statusLinePattern⟩
  profiles := profiles

theorem Config.ofSettings_of (c : Config) : ofSettings (fun s => s.of c) c.profiles = c :=
  rfl

/-- A configuration is determined by its settings and its profiles. -/
theorem Config.eq_of_settings {c d : Config} (h : ∀ s : Setting, s.of c = s.of d)
    (hprofiles : c.profiles = d.profiles) : c = d := by
  rw [← c.ofSettings_of, ← d.ofSettings_of, funext h, hprofiles]

/-! ## Settings under an environment -/

namespace Setting

/-- A setting under an environment is what its variable is read as. -/
theorem of_override (env : Environment) (c : Config) {s : Setting} (hs : s ≠ statusLinePattern) :
    s.of (c.override env) = ((env s.envName).bind s.kind.read).getD (s.of c) := by
  cases s with
  | statusLinePattern => exact absurd rfl hs
  | _ =>
    show Environment.override env _ _ _ = Environment.override env _ _ _
    congr 1

/-- The pattern of status lines stays as it is. -/
theorem of_override_statusLinePattern (env : Environment) (c : Config) :
    statusLinePattern.of (c.override env) = statusLinePattern.of c :=
  rfl

/-- A setting depends on no variable but its own. -/
theorem of_override_congr {env env' : Environment} (c : Config) {s : Setting}
    (h : env' s.envName = env s.envName) : s.of (c.override env') = s.of (c.override env) := by
  by_cases hs : s = statusLinePattern
  · rw [hs, of_override_statusLinePattern, of_override_statusLinePattern]
  · rw [of_override env' c hs, of_override env c hs, h]

/-- A setting goes from `before` to `after` as its variable says: it becomes what the variable
spells, if that is set and spells something of its kind, and stays if not. -/
def Follows (env : Environment) (s : Setting) (before after : s.kind.Value) : Prop :=
  (∃ spelled, env s.envName = some spelled ∧ s.kind.Spells spelled after) ∨
    (∀ spelled, env s.envName = some spelled → ∀ value, ¬ s.kind.Spells spelled value) ∧
      after = before

/-- There is one way to follow a variable. -/
theorem follows_iff {env : Environment} {s : Setting} {before after : s.kind.Value} :
    s.Follows env before after ↔ after = ((env s.envName).bind s.kind.read).getD before := by
  simp only [Follows, ← SettingKind.read_eq_some_iff]
  cases hvariable : env s.envName with
  | none => simp
  | some spelled =>
      cases hread : s.kind.read spelled with
      | none => simp [hread]
      | some value => simp [hread, eq_comm]

end Setting

/-- Settings follow their variables one by one.  The settings are all that a configuration is
written with, profiles apart, and a variable has the name of a section and of a setting in it.  Each
setting but the pattern of status lines becomes what its variable spells, and stays where that is
not set or spells nothing of the kind; the pattern and the profiles stay.  No setting depends on the
variable of another, and no other variable counts. -/
theorem Config.override_fieldwise (env : Environment) (c : Config) :
    (∀ d : Config, d.fields =
      [ConfigPart.general, .planner, .runner, .leakCheck].map (·.written d) ++
        [("profiles", .arr (d.profiles.map Profile.toJson))]) ∧
    (∀ s : Setting, s ≠ .statusLinePattern → ∀ value,
      s.Follows env (s.of c) value ↔ value = s.of (c.override env)) ∧
    Setting.statusLinePattern.of (c.override env) = Setting.statusLinePattern.of c ∧
    (c.override env).profiles = c.profiles ∧
    (∀ (s t : Setting) (spelled : Option String), t ≠ s →
      t.of (c.override (Function.update env s.envName spelled)) = t.of (c.override env)) ∧
    ∀ env' : Environment, (∀ s : Setting, env' s.envName = env s.envName) →
      c.override env' = c.override env := by
  refine ⟨Config.fields_eq, fun s hs value => ?_, rfl, rfl, fun s t spelled hne => ?_,
    fun env' h => ?_⟩
  · rw [Setting.follows_iff, Setting.of_override env c hs]
  · have hname : t.envName ≠ s.envName := fun h => hne (Setting.envName_injective h)
    refine Setting.of_override_congr c ?_
    rw [Function.update_of_ne hname]
  · exact Config.eq_of_settings (fun s => Setting.of_override_congr c (h s)) rfl

/-- Three variables: a number with a plus, a truth value in other words, and a list with a blank
item. -/
def threeVariables : Environment := fun name =>
  [("TESTGATE_RUNNER_MAX_PARALLEL", "+3"), ("TESTGATE_LEAK_CHECK_ENABLED", "yes"),
    ("TESTGATE_PLANNER_TAXONOMY", "gpu, , cpu")].lookup name

theorem Config.override_fieldwise_threeVariables :
    Setting.maxParallel ≠ .statusLinePattern ∧ Setting.enabled ≠ .statusLinePattern ∧
      Setting.taxonomy ≠ .statusLinePattern ∧
      (Config.default.override threeVariables).runner.maxParallel = 3 ∧
      (Config.default.override threeVariables).leakCheck.enabled = true ∧
      (Config.default.override threeVariables).planner.taxonomy = ["gpu", "cpu"] := by
  have hfollows := (Config.override_fieldwise threeVariables .default).2.1
  have hparallel : Setting.maxParallel.Follows threeVariables (8 : UInt64) (3 : UInt64) :=
    .inl ⟨"+3", by decide +kernel, ['3'], .inr (by decide), by decide,
      List.forall_mem_singleton.mpr (by decide), rfl⟩
  have henabled : Setting.enabled.Follows threeVariables true true := by
    refine .inr ⟨fun spelled h value hspells => ?_, rfl⟩
    have hyes : threeVariables Setting.enabled.envName = some "yes" := by decide +kernel
    cases hyes.symm.trans h
    have hspelled : "yes" = cond value "true" "false" := hspells
    cases value with
    | false => exact absurd hspelled (by decide)
    | true => exact absurd hspelled (by decide)
  have hitems : ["gpu", "cpu"] = SettingKind.itemsOf "gpu, , cpu" := by decide +kernel
  have htaxonomy : Setting.taxonomy.Follows threeVariables defaultTaxonomy ["gpu", "cpu"] :=
    .inl ⟨"gpu, , cpu", by decide +kernel, hitems⟩
  have hdiffer : Setting.maxParallel ≠ .statusLinePattern ∧ Setting.enabled ≠ .statusLinePattern ∧
      Setting.taxonomy ≠ .statusLinePattern := by decide
  exact ⟨hdiffer.1, hdiffer.2.1, hdiffer.2.2, ((hfollows _ hdiffer.1 _).mp hparallel).symm,
    ((hfollows _ hdiffer.2.1 _).mp henabled).symm, ((hfollows _ hdiffer.2.2 _).mp htaxonomy).symm⟩

/-- The variable that the pattern of status lines would have. -/
def patternVariable : Environment := fun name =>
  [("TESTGATE_LEAK_CHECK_STATUS_LINE_PATTERN", "^(?P<name>\\S+) (?P<status>\\S+)$")].lookup name

/-- The pattern of status lines does not follow its variable. -/
theorem Config.override_misses_statusLinePattern :
    Setting.statusLinePattern.envName = "TESTGATE_LEAK_CHECK_STATUS_LINE_PATTERN" ∧
      ¬ Setting.statusLinePattern.Follows patternVariable
        (Setting.statusLinePattern.of .default)
        (Setting.statusLinePattern.of (Config.default.override patternVariable)) := by
  refine ⟨by decide +kernel, fun h => ?_⟩
  have hset : patternVariable Setting.statusLinePattern.envName =
      some "^(?P<name>\\S+) (?P<status>\\S+)$" := by decide +kernel
  have hpattern := Setting.follows_iff.mp h
  rw [hset] at hpattern
  have hdefault :
      LeakCheckConfig.default.statusLinePattern ≠ "^(?P<name>\\S+) (?P<status>\\S+)$" := by
    decide
  exact hdefault hpattern

end CiPlan
