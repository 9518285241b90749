import CiPlan.Leak.Poll
import CiPlan.Proofs.Except

/-!
# What a validated configuration promises

The times of a leak check whose settings passed their check can be used as they are: there is a
pause between rounds, and it never grows shorter than it began.  `isValid_of_validate` gives these
promises by name, so that no other proof has to take the check apart.
-/

namespace CiPlan

/-- The times of a leak check that can be used. -/
structure PollPolicy.IsValid (p : PollPolicy) : Prop where
  interval_pos : 0 < p.pollInterval
  interval_le : p.pollInterval ≤ p.maxPollInterval
  wait_pos : 0 < p.maxWait
  delay_le : p.initialDelay ≤ p.maxWait
  timeout_pos : 0 < p.queryTimeout

theorem require_eq_ok {condition : Bool} {field : String} {complaint : Complaint} {u : Unit} :
    require condition field complaint = .ok u ↔ condition = true := by
  cases condition <;> simp [require]

theorem ofSecs_le {a b : UInt64} (h : a ≤ b) : Duration.ofSecs a ≤ .ofSecs b :=
  Nat.mul_le_mul_right _ (UInt64.le_iff_toNat_le.mp h)

private theorem ofSecs_pos {a : UInt64} (h : 0 < a) : 0 < Duration.ofSecs a :=
  Nat.mul_pos (UInt64.lt_iff_toNat_lt.mp h) (by decide)

/-- The times of a validated leak check can be used. -/
theorem LeakCheckConfig.isValid_of_validate [Formats] {c : LeakCheckConfig}
    (h : c.validate = .ok ()) : (PollPolicy.ofConfig c).IsValid := by
  simp only [LeakCheckConfig.validate, bind_eq_ok, require_eq_ok, decide_eq_true_eq, isUpTo,
    Bool.and_eq_true, exists_const] at h
  obtain ⟨hinterval, hmax, ⟨hwait, -⟩, hdelay, htimeout, -⟩ := h
  exact ⟨ofSecs_pos hinterval, ofSecs_le hmax, ofSecs_pos hwait, ofSecs_le hdelay,
    ofSecs_pos htimeout⟩

/-- A validated configuration has a validated leak check. -/
theorem Config.leakCheck_of_validate [Formats] {c : Config} (h : c.validate = .ok ()) :
    c.leakCheck.validate = .ok () := by
  simp only [Config.validate, bind_eq_ok] at h
  obtain ⟨-, -, -, -, -, -, _, hleakCheck, -⟩ := h
  exact hleakCheck

/-- The default time limit of a validated configuration is at most a day. -/
theorem Config.defaultTimeoutSecs_le_of_validate [Formats] {c : Config} (h : c.validate = .ok ()) :
    c.runner.defaultTimeoutSecs ≤ maxBucketTimeoutSecs := by
  simp only [Config.validate, bind_eq_ok] at h
  obtain ⟨-, -, -, -, _, hrunner, -⟩ := h
  simp only [RunnerConfig.validate, bind_eq_ok, require_eq_ok, isUpTo, Bool.and_eq_true,
    decide_eq_true_eq, exists_const] at hrunner
  exact hrunner.2.2.2

/-- The settings when nothing is said pass their check. -/
theorem Config.validate_default : Config.default.validate = .ok () := by decide +kernel

@[inherit_doc Config.validate_default]
theorem LeakCheckConfig.validate_default : LeakCheckConfig.default.validate = .ok () := by decide +kernel

/-- A pause that lasts is followed by one that lasts. -/
theorem PollPolicy.nextInterval_pos {p : PollPolicy} (hmax : 0 < p.maxPollInterval)
    {interval : Duration} (h : 0 < interval) : 0 < p.nextInterval interval := by
  have hlargest : 0 < Duration.largest := by decide
  rw [nextInterval, Duration.double]
  unfold Duration at *
  omega

end CiPlan
