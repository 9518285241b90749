import CiPlan.Proofs.Validate

/-!
# The two checks of the patterns

The patterns of the leak check are compiled twice: when the settings are checked, and when a parser
of listings is made of them.  `usablePatterns` is what both do, over the way in which a fault is
told (`validatePatterns_eq`, `StatusParser.ofPatterns_eq`), and `FirstFault` says which fault that
is.  Each of the two has its own list of groups that it looks for, and they look for the same groups
(`neededGroups_eq`).

Nothing here depends on which texts are patterns, nor on what patterns match: the reader of patterns
may be any function of their text.

Main result: `patternChecks_agree`.  Both accept the same patterns, and what the one rejects the
other rejects over the same fault.
-/

namespace CiPlan

/-! ## The check of the settings in two parts -/

/-- The part of the check of the leak check's settings that is not about patterns. -/
def LeakCheckConfig.validateTimes (c : LeakCheckConfig) : Except ConfigError Unit := do
  require (0 < c.pollIntervalSecs) "leak_check.poll_interval_secs" .notPositive
  require (c.pollIntervalSecs ≤ c.maxPollIntervalSecs) "leak_check.max_poll_interval_secs"
    .belowPollInterval
  require (isUpTo maxLeakWaitSecs c.maxWaitSecs) "leak_check.max_wait_secs"
    (outsideUpTo maxLeakWaitSecs)
  require (c.initialDelaySecs ≤ c.maxWaitSecs) "leak_check.initial_delay_secs" .aboveMaxWait
  require (0 < c.queryTimeoutSecs) "leak_check.query_timeout_secs" .notPositive
  require (!c.runningStates.isEmpty) "leak_check.running_states" .noRunningState

/-- The part that is. -/
def validatePatterns [Formats] (linePattern resourcePattern : String) :
    Except ConfigError Unit := do
  let line ← patternOf "leak_check.status_line_pattern" linePattern
  LeakCheckConfig.neededGroups.forM fun group =>
    require (line.hasGroup group) "leak_check.status_line_pattern" (.missingGroup group)
  let _ ← patternOf "leak_check.resource_pattern" resourcePattern

theorem LeakCheckConfig.validate_eq [Formats] (c : LeakCheckConfig) :
    c.validate = (do
      c.validateTimes
      validatePatterns c.statusLinePattern c.resourcePattern) := by
  simp only [validate, validateTimes, validatePatterns, bind_assoc]

/-! ## What both compilations do -/

section Patterns

variable {ε : Type} (linePattern resourcePattern : String)

/-- Both checks look for the same groups. -/
theorem neededGroups_eq : LeakCheckConfig.neededGroups = StatusParser.neededGroups :=
  rfl

/-- Looks for the groups that the pattern of status lines needs. -/
def needGroups (tell : String → PatternFault → ε) (line : Pattern) : Except ε Unit :=
  StatusParser.neededGroups.forM fun group =>
    if line.hasGroup group then .ok ()
    else .error (tell "status_line_pattern" (.missingGroup group))

/-- Compiles the patterns and looks for the needed groups; a fault is told by `tell`. -/
def usablePatterns [Formats] (tell : String → PatternFault → ε) : Except ε (Pattern × Pattern) := do
  let line ← (Formats.pattern linePattern).mapError fun e => tell "status_line_pattern" (.invalid e)
  needGroups tell line
  let resource ← (Formats.pattern resourcePattern).mapError fun e =>
    tell "resource_pattern" (.invalid e)
  return (line, resource)

/-- A fault as the check of the settings tells it. -/
def PatternFault.complaint : PatternFault → Complaint
  | invalid reason => .badPattern reason
  | missingGroup group => .missingGroup group

/-- A fault of a setting of the leak check. -/
def ConfigError.ofFault (field : String) (fault : PatternFault) : ConfigError :=
  .invalidValue ("leak_check." ++ field) fault.complaint

theorem ConfigError.ofFault_inj {field field' : String} {fault fault' : PatternFault}
    (h : ofFault field fault = ofFault field' fault') : field = field' ∧ fault = fault' := by
  have hparts := ConfigError.invalidValue.inj h
  refine ⟨String.append_right_inj _ |>.mp hparts.1, ?_⟩
  cases fault <;> cases fault' <;> cases hparts.2 <;> rfl

theorem validatePatterns_eq [Formats] :
    validatePatterns linePattern resourcePattern =
      (fun _ => ()) <$> usablePatterns linePattern resourcePattern ConfigError.ofFault := by
  simp only [validatePatterns, neededGroups_eq, usablePatterns, patternOf, map_bind, map_pure]
  rfl

/-- The parser of listings with two patterns. -/
def StatusParser.ofUsable (runningStates : List String) (patterns : Pattern × Pattern) :
    StatusParser where
  readLine text := do
    let captures ← patterns.1.captures text
    return ⟨← captures "name", ← captures "status"⟩
  attributes := patterns.2.isMatch
  runningStates := runningStates

theorem StatusParser.ofPatterns_eq [Formats] (runningStates : List String) :
    StatusParser.ofPatterns linePattern resourcePattern runningStates =
      ofUsable runningStates <$>
        usablePatterns linePattern resourcePattern LeakCheckError.pattern := by
  simp only [ofPatterns, usablePatterns, map_bind, map_pure]
  rfl

/-- The first fault of the patterns: the setting that it is in, and what it is. -/
inductive FirstFault [Formats] : String → PatternFault → Prop where
  | line {reason : PatternError} :
      Formats.pattern linePattern = .error reason →
        FirstFault "status_line_pattern" (.invalid reason)
  | group {line : Pattern} {before after : List String} {group : String} :
      Formats.pattern linePattern = .ok line →
        StatusParser.neededGroups = before ++ group :: after →
          (∀ g ∈ before, line.hasGroup g = true) → line.hasGroup group = false →
            FirstFault "status_line_pattern" (.missingGroup group)
  | resource {line : Pattern} {reason : PatternError} :
      Formats.pattern linePattern = .ok line →
        (∀ g ∈ StatusParser.neededGroups, line.hasGroup g = true) →
          Formats.pattern resourcePattern = .error reason →
            FirstFault "resource_pattern" (.invalid reason)

variable {linePattern resourcePattern} {tell : String → PatternFault → ε}

theorem needGroups_eq_ok_iff {line : Pattern} {u : Unit} :
    needGroups tell line = .ok u ↔ ∀ g ∈ StatusParser.neededGroups, line.hasGroup g = true := by
  refine forM_eq_ok.trans (forall₂_congr fun g _ => ?_)
  cases line.hasGroup g <;> simp

theorem needGroups_eq_error_iff {line : Pattern} {e : ε} :
    needGroups tell line = .error e ↔ ∃ before group after,
      StatusParser.neededGroups = before ++ group :: after ∧
        (∀ g ∈ before, line.hasGroup g = true) ∧ line.hasGroup group = false ∧
        e = tell "status_line_pattern" (.missingGroup group) := by
  refine forM_eq_error.trans (exists₃_congr fun before group after => ?_)
  refine and_congr_right fun _ => and_congr (forall₂_congr fun g _ => ?_) ?_
  · cases line.hasGroup g <;> simp
  · cases line.hasGroup group <;> simp [eq_comm]

/-- The first fault is the one that is told. -/
theorem usablePatterns_eq_error_iff [Formats] {e : ε} :
    usablePatterns linePattern resourcePattern tell = .error e ↔
      ∃ field fault, FirstFault linePattern resourcePattern field fault ∧ e = tell field fault := by
  simp only [usablePatterns, bind_eq_error, mapError_eq_error, mapError_eq_ok,
    needGroups_eq_ok_iff, needGroups_eq_error_iff]
  constructor
  · rintro (⟨reason, hline, rfl⟩ | ⟨line, hline,
      ⟨before, group, after, hsplit, hfound, hmissing, rfl⟩ |
        ⟨-, hgroups, ⟨reason, hresource, rfl⟩ | ⟨_, -, h⟩⟩⟩)
    · exact ⟨_, _, .line hline, rfl⟩
    · exact ⟨_, _, .group hline hsplit hfound hmissing, rfl⟩
    · exact ⟨_, _, .resource hline hgroups hresource, rfl⟩
    · cases h
  · rintro ⟨field, fault, hfault, rfl⟩
    cases hfault with
    | line hline => exact .inl ⟨_, hline, rfl⟩
    | group hline hsplit hfound hmissing =>
        exact .inr ⟨_, hline, .inl ⟨_, _, _, hsplit, hfound, hmissing, rfl⟩⟩
    | resource hline hgroups hresource =>
        exact .inr ⟨_, hline, .inr ⟨(), hgroups, .inl ⟨_, hresource, rfl⟩⟩⟩

/-- A text is a pattern of status lines: it is a pattern and has the groups that are needed. -/
def IsStatusPattern [Formats] (text : String) : Prop :=
  ∃ line, Formats.pattern text = .ok line ∧
    ∀ g ∈ StatusParser.neededGroups, line.hasGroup g = true

theorem validatePatterns_eq_ok_iff [Formats] :
    validatePatterns linePattern resourcePattern = .ok () ↔
      IsStatusPattern linePattern ∧ ∃ resource, Formats.pattern resourcePattern = .ok resource := by
  simp only [validatePatterns_eq, usablePatterns, map_eq_ok, bind_eq_ok, mapError_eq_ok,
    needGroups_eq_ok_iff, IsStatusPattern, and_true, exists_const]
  constructor
  · rintro ⟨_, line, hline, hgroups, resource, hresource, -⟩
    exact ⟨⟨line, hline, hgroups⟩, resource, hresource⟩
  · rintro ⟨⟨line, hline, hgroups⟩, resource, hresource⟩
    exact ⟨_, line, hline, hgroups, resource, hresource, rfl⟩

/-- Both checks of two patterns find the same fault, and each tells it in its own way. -/
structure PatternChecksAgree [Formats] (linePattern resourcePattern : String)
    (runningStates : List String) : Prop where
  accepts : validatePatterns linePattern resourcePattern = .ok () ↔
    ∃ parser, StatusParser.ofPatterns linePattern resourcePattern runningStates = .ok parser
  rejects : ∀ field fault,
    StatusParser.ofPatterns linePattern resourcePattern runningStates =
        .error (.pattern field fault) ↔
      validatePatterns linePattern resourcePattern =
        .error (.invalidValue ("leak_check." ++ field) fault.complaint)
  /-- What the parser fails with is the first fault of the patterns. -/
  told : ∀ e, StatusParser.ofPatterns linePattern resourcePattern runningStates = .error e ↔
    ∃ field fault, FirstFault linePattern resourcePattern field fault ∧ e = .pattern field fault
  /-- So is what the check of the settings fails with. -/
  complained : ∀ e, validatePatterns linePattern resourcePattern = .error e ↔
    ∃ field fault, FirstFault linePattern resourcePattern field fault ∧
      e = .invalidValue ("leak_check." ++ field) fault.complaint

theorem patternChecks_agree [Formats] (linePattern resourcePattern : String)
    (runningStates : List String) :
    PatternChecksAgree linePattern resourcePattern runningStates := by
  have htold : ∀ e, StatusParser.ofPatterns linePattern resourcePattern runningStates = .error e ↔
      ∃ field fault, FirstFault linePattern resourcePattern field fault ∧
        e = .pattern field fault := by
    intro e
    rw [StatusParser.ofPatterns_eq, map_eq_error, usablePatterns_eq_error_iff]
  have hcomplained : ∀ e, validatePatterns linePattern resourcePattern = .error e ↔
      ∃ field fault, FirstFault linePattern resourcePattern field fault ∧
        e = ConfigError.ofFault field fault := by
    intro e
    rw [validatePatterns_eq, map_eq_error, usablePatterns_eq_error_iff]
  refine ⟨?_, fun field fault => ?_, htold, hcomplained⟩
  · -- What does not fail succeeds, and both fail over the same faults.
    cases hvalid : validatePatterns linePattern resourcePattern with
    | ok =>
        cases hparser : StatusParser.ofPatterns linePattern resourcePattern runningStates with
        | ok parser => simp
        | error e =>
            obtain ⟨field, fault, hfault, -⟩ := (htold e).mp hparser
            cases hvalid.symm.trans ((hcomplained _).mpr ⟨field, fault, hfault, rfl⟩)
    | error e =>
        obtain ⟨field, fault, hfault, -⟩ := (hcomplained e).mp hvalid
        simp [(htold _).mpr ⟨field, fault, hfault, rfl⟩]
  · show _ ↔ validatePatterns _ _ = .error (ConfigError.ofFault field fault)
    rw [htold, hcomplained]
    constructor
    · rintro ⟨_, _, hfault, h⟩
      cases h
      exact ⟨_, _, hfault, rfl⟩
    · rintro ⟨_, _, hfault, h⟩
      obtain ⟨rfl, rfl⟩ := ConfigError.ofFault_inj h
      exact ⟨_, _, hfault, rfl⟩

end Patterns

end CiPlan
