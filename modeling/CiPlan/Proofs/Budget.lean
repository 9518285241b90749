import CiPlan.Proofs.Poll
import Mathlib.Algebra.Order.Floor.Div
import Mathlib.Data.List.Dedup

/-!
# The time that a leak check takes

A pause never goes beyond the longest wait, so no round starts after it, and only the last round can
end after it: by at most one query time limit for each key.  As long as there is time left, a pause is
at least as long as the first one, which bounds the number of rounds.  Nothing but the end of the time
ends a check in which a target is not clean.

`KeepsBudget` collects these facts about a check and its rounds.  Main result: `check_keepsBudget`.
-/

namespace CiPlan

/-- A validated leak check waits at most six hours, and for a second at least between rounds. -/
theorem LeakCheckConfig.secs_of_validate [Formats] {c : LeakCheckConfig} (h : c.validate = .ok ()) :
    1 ≤ c.pollIntervalSecs.toNat ∧ c.maxWaitSecs.toNat ≤ 21600 := by
  simp only [LeakCheckConfig.validate, bind_eq_ok, require_eq_ok, decide_eq_true_eq, isUpTo,
    Bool.and_eq_true, exists_const] at h
  obtain ⟨hinterval, -, ⟨-, hwait⟩, -⟩ := h
  exact ⟨UInt64.lt_iff_toNat_lt.mp hinterval, UInt64.le_iff_toNat_le.mp hwait⟩

/-- Seconds that fit a machine word are no more than the largest length of time. -/
theorem Duration.ofSecs_le_largest (secs : UInt64) : Duration.ofSecs secs ≤ Duration.largest := by
  have hsecs : secs.toNat + 1 ≤ UInt64.size := secs.toNat_lt
  have hnanos := Nat.mul_le_mul_right Duration.perSecond hsecs
  have hsecond : 1 ≤ Duration.perSecond := by decide
  rw [Nat.succ_mul] at hnanos
  show secs.toNat * Duration.perSecond ≤ UInt64.size * Duration.perSecond - 1
  omega

namespace PollPolicy

/-- The longest wait of a validated leak check is no more than 21600 first pauses. -/
theorem maxWait_le_of_validate [Formats] {c : LeakCheckConfig} (h : c.validate = .ok ()) :
    (ofConfig c).maxWait ≤ (ofConfig c).pollInterval * 21600 := by
  obtain ⟨hinterval, hwait⟩ := c.secs_of_validate h
  calc c.maxWaitSecs.toNat * Duration.perSecond
      ≤ 21600 * Duration.perSecond := Nat.mul_le_mul_right _ hwait
    _ = 1 * Duration.perSecond * 21600 := by rw [Nat.one_mul, Nat.mul_comm]
    _ ≤ c.pollIntervalSecs.toNat * Duration.perSecond * 21600 :=
        Nat.mul_le_mul_right _ (Nat.mul_le_mul_right _ hinterval)

/-- A configured pause can be doubled without falling below itself. -/
theorem pollInterval_ofConfig_le (c : LeakCheckConfig) :
    (ofConfig c).pollInterval ≤ Duration.largest :=
  Duration.ofSecs_le_largest c.pollIntervalSecs

end PollPolicy

namespace LeakChecker

/-! ## The time of a round -/

section Round

variable (c : LeakChecker)

theorem finish_query_le (r : Round) (p : Profile) :
    (c.query r p).finish ≤ r.now + c.policy.queryTimeout := by
  rcases c.query_cases r p with ⟨hle, h⟩ | ⟨-, h⟩
  · rw [h]
    exact Nat.add_le_add_left hle r.now
  · rw [h]

/-- Asking takes no longer than the time limit for each query that is made. -/
theorem now_ask_le (r : Round) (p : Profile) :
    (c.ask r p).1.now + r.queries.length * c.policy.queryTimeout ≤
      r.now + (c.ask r p).1.queries.length * c.policy.queryTimeout := by
  unfold ask
  split
  · exact Nat.le_refl _
  · have hfinish := c.finish_query_le r p
    show (c.query r p).finish + _ ≤ r.now + (r.queries.length + 1) * c.policy.queryTimeout
    rw [Nat.succ_mul]
    unfold Duration at *
    omega

theorem now_askAll_le (pending : List Pending) : ∀ r : Round,
    (c.askAll r pending).1.now + r.queries.length * c.policy.queryTimeout ≤
      r.now + (c.askAll r pending).1.queries.length * c.policy.queryTimeout := by
  induction pending with
  | nil =>
      intro r
      exact Nat.le_refl _
  | cons p pending ih =>
      intro r
      unfold askAll
      split
      · exact ih r
      · have hask := c.now_ask_le r p.profile
        have hrest := ih (c.ask r p.profile).1
        simp only
        unfold Duration at *
        omega

end Round

section Passes

variable {c : LeakChecker} {targets : List Profile} {number : Nat} {now interval : Duration}
  {queries : List Query} {pending pending' : List Pending} {r : Round} {passes : List Pass}

/-- The number of distinct keys of some targets. -/
def keyCount (targets : List Profile) : Nat :=
  (targets.map QueryKey.of).dedup.length

/-- A round asks at most once for each key of the targets, within the time limit. -/
theorem BeforeRound.now_le (h : c.BeforeRound targets number now queries pending)
    (hask : c.askAll ⟨number, now, queries, [], false⟩ pending = (r, pending')) :
    r.now ≤ now + keyCount targets * c.policy.queryTimeout := by
  obtain ⟨new, hround, hr, -, -, honly⟩ := exists_isRound h.asked h.past hask
  have hkeys : new.map Query.key ⊆ (targets.map QueryKey.of).dedup := by
    intro key hkey
    obtain ⟨q, hq, rfl⟩ := List.mem_map.mp hkey
    obtain ⟨u, hu, -, hkey⟩ := honly q hq
    rw [h.pending] at hu
    obtain ⟨p, hp, rfl⟩ := List.mem_map.mp hu
    rw [Pending.profile_hearAll] at hkey
    rw [List.mem_dedup, hkey]
    exact List.mem_map_of_mem hp
  have hlength : new.length ≤ keyCount targets := by
    have hle := (hround.nodup.subperm hkeys).length_le
    rwa [List.length_map] at hle
  have htime := c.now_askAll_le pending ⟨number, now, queries, [], false⟩
  rw [hask] at htime
  have hqueries : r.queries.length = new.length + queries.length := by
    rw [hr]
    exact List.length_append
  have hlimit := Nat.mul_le_mul_right c.policy.queryTimeout hlength
  simp only [hqueries, Nat.add_mul] at htime
  unfold Duration at *
  omega

/-- No round starts after the longest wait. -/
theorem Passes.start_le (h : c.Passes number now interval queries pending passes)
    (hnow : now ≤ c.policy.maxWait) : ∀ pass ∈ passes, pass.start ≤ c.policy.maxWait := by
  induction h with
  | last hask hlast =>
      intro pass hpass
      rw [List.mem_singleton.mp hpass]
      exact hnow
  | @next number now interval queries pending r pending' passes hask hlast h ih =>
      intro pass hpass
      rcases List.mem_cons.mp hpass with rfl | hpass
      · exact hnow
      · refine ih ?_ pass hpass
        have hleft := lt_maxWait_of_not_isLast hlast
        have hpause : c.pause r interval ≤ c.policy.maxWait - r.now := Nat.min_le_right ..
        unfold Duration at *
        omega

/-- A pause lasts to the end of the time, or at least as long as the first one. -/
theorem pause_cases (hvalid : c.policy.IsValid) (hinterval : c.policy.pollInterval ≤ interval)
    (r : Round) :
    c.pause r interval = c.policy.maxWait - r.now ∨ c.policy.pollInterval ≤ c.pause r interval := by
  have hchoice : c.policy.pollInterval ≤
      if r.failed then c.policy.maxPollInterval else interval := by
    split
    · exact hvalid.interval_le
    · exact hinterval
  rw [pause]
  unfold Duration at *
  omega

/-- Pauses do not grow shorter than the first one. -/
theorem le_nextInterval (hvalid : c.policy.IsValid) (hinterval : c.policy.pollInterval ≤ interval)
    (hbound : c.policy.pollInterval ≤ Duration.largest) :
    c.policy.pollInterval ≤ c.policy.nextInterval interval := by
  have hcap := hvalid.interval_le
  rw [PollPolicy.nextInterval, Duration.double]
  unfold Duration at *
  omega

/-- While there is time left, the rounds are at least a first pause apart. -/
theorem Passes.length_le (h : c.Passes number now interval queries pending passes)
    (hvalid : c.policy.IsValid) (hbound : c.policy.pollInterval ≤ Duration.largest)
    (hinterval : c.policy.pollInterval ≤ interval) :
    passes.length ≤ (c.policy.maxWait - now) ⌈/⌉ c.policy.pollInterval + 1 := by
  induction h with
  | last hask hlast => exact Nat.le_add_left 1 _
  | @next number now interval queries pending r pending' passes hask hlast h ih =>
      have hrest := ih (le_nextInterval hvalid hinterval hbound)
      have hnow := now_le_of_askAll hask
      have hleft := lt_maxWait_of_not_isLast hlast
      have hpause := pause_cases hvalid hinterval r
      have hpos := hvalid.interval_pos
      -- The time that is left before the round takes `k` first pauses, that after it one less.
      generalize hk : (c.policy.maxWait - now) ⌈/⌉ c.policy.pollInterval = k
      have henough : c.policy.maxWait - now ≤ c.policy.pollInterval * k :=
        (ceilDiv_le_iff_le_mul hpos).mp (Nat.le_of_eq hk)
      cases k with
      | zero =>
          rw [Nat.mul_zero] at henough
          unfold Duration at *
          omega
      | succ k =>
          have hfewer : (c.policy.maxWait - (r.now + c.pause r interval)) ⌈/⌉ c.policy.pollInterval ≤
              k := by
            refine (ceilDiv_le_iff_le_mul hpos).mpr ?_
            rw [Nat.mul_succ] at henough
            rcases hpause with hpause | hpause
            · have hnone : c.policy.maxWait - (r.now + c.pause r interval) = 0 := by
                unfold Duration at *
                omega
              rw [hnone]
              exact Nat.zero_le _
            · unfold Duration at *
              omega
          rw [List.length_cons]
          exact Nat.succ_le_succ (Nat.le_trans hrest (Nat.succ_le_succ hfewer))

end Passes

/-! ## The whole check -/

/-- The time at which the first round starts. -/
def firstStart (c : LeakChecker) (targets : List Profile) : Duration :=
  if targets.isEmpty then 0 else min c.policy.initialDelay c.policy.maxWait

/-- A check of some targets goes through these rounds, and keeps to its time and to no less of it
than it may use. -/
structure KeepsBudget (c : LeakChecker) (targets : List Profile) (passes : List Pass) : Prop where
  /-- The loop ends after these rounds, although nothing bounds their number. -/
  ends : c.Passes 1 (c.firstStart targets) c.policy.pollInterval [] (targets.map Pending.start) passes
  /-- The course of the check is what is known at the end of the last round. -/
  concludes : ∃ last, passes.getLast? = some last ∧
    c.check targets =
      ⟨⟨last.targets.map Pending.report⟩, last.after.queries.reverse, last.after.now⟩
  starts : ∀ pass ∈ passes, pass.start ≤ c.policy.maxWait
  elapsed : (c.check targets).elapsed ≤
    c.policy.maxWait + keyCount targets * c.policy.queryTimeout
  rounds : passes.length ≤
    (c.policy.maxWait - c.policy.initialDelay) ⌈/⌉ c.policy.pollInterval + 1
  /-- The number of a round fits a machine word of 32 bits. -/
  round_lt : passes.length < UInt32.size
  /-- So does the number of queries of a target, of which there is one in a round. -/
  queries : ∀ t ∈ (c.check targets).report.targets, t.queries ≤ passes.length
  /-- A check that leaves something undecided or running has used up its time. -/
  patient : (∃ t ∈ (c.check targets).report.targets, t.verdict ≠ .clean) →
    c.policy.maxWait ≤ (c.check targets).elapsed
  idle : targets = [] → (c.check targets).elapsed = 0 ∧ (c.check targets).queries = []

section Check

variable {c : LeakChecker} {targets : List Profile}

theorem exists_passes_check (targets : List Profile) (hvalid : c.policy.IsValid) :
    ∃ passes last, c.Passes 1 (c.firstStart targets) c.policy.pollInterval []
        (targets.map Pending.start) passes ∧ passes.getLast? = some last ∧
      c.check targets =
        ⟨⟨last.targets.map Pending.report⟩, last.after.queries.reverse, last.after.now⟩ := by
  obtain ⟨passes, last, hpasses, hgetLast, hrun⟩ := exists_passes
    (Nat.lt_of_lt_of_le hvalid.interval_pos hvalid.interval_le) (c.policy.maxWait + 1) 1
    (c.firstStart targets) c.policy.pollInterval [] (targets.map Pending.start)
    (Nat.le_succ_of_le (Nat.sub_le ..)) hvalid.interval_pos
  refine ⟨passes, last, hpasses, hgetLast, ?_⟩
  rw [firstStart] at hrun
  rw [check, hrun]

theorem firstStart_le (c : LeakChecker) (targets : List Profile) :
    c.firstStart targets ≤ c.policy.maxWait := by
  rw [firstStart]
  split
  · exact Nat.zero_le _
  · exact Nat.min_le_right ..

theorem length_le_of_passes_check (hvalid : c.policy.IsValid)
    (hbound : c.policy.pollInterval ≤ Duration.largest) {passes : List Pass}
    (h : c.Passes 1 (c.firstStart targets) c.policy.pollInterval [] (targets.map Pending.start)
      passes) :
    passes.length ≤
      (c.policy.maxWait - c.policy.initialDelay) ⌈/⌉ c.policy.pollInterval + 1 := by
  cases targets with
  | nil =>
      cases h with
      | last => exact Nat.le_add_left 1 _
      | next hask hlast =>
          -- Without targets the first round is the last.
          cases hask
          exact absurd rfl hlast
  | cons p targets =>
      have hstart : c.firstStart (p :: targets) = c.policy.initialDelay :=
        Nat.min_eq_left hvalid.delay_le
      have hlength := h.length_le hvalid hbound (Nat.le_refl _)
      rwa [hstart] at hlength

/-- What is known of the targets and the history before a round, and that the history is that of
earlier rounds. -/
structure Underway (c : LeakChecker) (targets : List Profile) (number : Nat) (now : Duration)
    (queries : List Query) (pending : List Pending) : Prop where
  before : c.BeforeRound targets number now queries pending
  round_lt : ∀ q ∈ queries, q.round < number

theorem underway_start (c : LeakChecker) (targets : List Profile) (now : Duration) :
    c.Underway targets 1 now [] (targets.map Pending.start) :=
  ⟨c.beforeRound_start targets now, by simp⟩

theorem Underway.next {number : Nat} {now : Duration} {queries : List Query}
    {pending pending' : List Pending} {r : Round} (h : c.Underway targets number now queries pending)
    (hask : c.askAll ⟨number, now, queries, [], false⟩ pending = (r, pending')) :
    ∀ later, r.now ≤ later → c.Underway targets (number + 1) later r.queries pending' := by
  intro later hlater
  refine ⟨h.before.next hask later hlater, ?_⟩
  obtain ⟨new, hround, rfl, -⟩ := exists_isRound h.before.asked h.before.past hask
  intro q hq
  rcases List.mem_append.mp hq with hq | hq
  · rw [hround.round q hq]
    exact Nat.lt_succ_self _
  · exact Nat.lt_succ_of_lt (h.round_lt q hq)

/-- A target is asked about in each round up to its last, so not more often than there are rounds. -/
theorem Underway.queries_le {count : Nat} {now : Duration} {queries : List Query}
    {pending : List Pending} (h : c.Underway targets (count + 1) now queries pending)
    (hcount : 1 ≤ count) : ∀ p ∈ pending, p.report.queries ≤ count := by
  intro u hu
  rw [h.before.pending] at hu
  obtain ⟨p, hp, rfl⟩ := List.mem_map.mp hu
  have hreports := reports_of_told hcount (h.before.told p hp)
  have hlast : ((Pending.start p).hearAll (c.answersTo (.of p) queries)).report.queries ∈
      (queries.reverse.filter fun q => q.IsAbout p).map (·.round) := by
    have hasked := hreports.asked
    rw [hreports.rounds, List.mem_range'_1]
    omega
  obtain ⟨q, hq, hround⟩ := List.mem_map.mp hlast
  have hmem : q ∈ queries := List.mem_reverse.mp (List.mem_filter.mp hq).1
  have hlt := h.round_lt q hmem
  omega

/-- A target that is done is clean. -/
theorem Underway.clean_of_isDone {number : Nat} {now : Duration} {queries : List Query}
    {pending : List Pending} (h : c.Underway targets number now queries pending) :
    ∀ p ∈ pending, p.isDone = true → p.report.verdict = .clean := by
  intro u hu hdone
  rw [h.before.pending] at hu
  obtain ⟨p, -, rfl⟩ := List.mem_map.mp hu
  rw [Pending.isDone_start_hearAll] at hdone
  exact (Pending.conclusion_start_hearAll_eq_clean_iff p _).mpr hdone

/-- Without targets nothing is asked. -/
theorem check_nil (c : LeakChecker) : c.check [] = ⟨⟨[]⟩, [], 0⟩ :=
  rfl

/-- Every check of some targets ends within its budget, whatever the status commands do, and does not
give up before its time is over. -/
theorem check_keepsBudget [Formats] {config : LeakCheckConfig} (hvalid : config.validate = .ok ())
    (parser : StatusParser) (client : StatusClient) (targets : List Profile) :
    ∃ passes, LeakChecker.KeepsBudget ⟨parser, .ofConfig config, client⟩ targets passes := by
  obtain ⟨c, hc⟩ : ∃ c : LeakChecker, c = ⟨parser, .ofConfig config, client⟩ := ⟨_, rfl⟩
  rw [← hc]
  have hpolicy : c.policy = .ofConfig config := by rw [hc]
  have hisValid : c.policy.IsValid := hpolicy ▸ LeakCheckConfig.isValid_of_validate hvalid
  obtain ⟨passes, last, hpasses, hgetLast, hcheck⟩ :=
    exists_passes_check targets hisValid
  have hstart := c.underway_start targets (c.firstStart targets)
  obtain ⟨last', hgetLast', hend, hisLast⟩ := hpasses.kept (fun hinv hask => hinv.next hask) hstart
  rw [hgetLast] at hgetLast'
  cases hgetLast'
  have hmem : last ∈ passes := List.mem_of_getLast? hgetLast
  have hlength : 1 ≤ passes.length := List.length_pos_of_mem hmem
  have hstarts := hpasses.start_le (c.firstStart_le targets)
  have hbound : c.policy.pollInterval ≤ Duration.largest :=
    hpolicy ▸ PollPolicy.pollInterval_ofConfig_le config
  have hrounds := length_le_of_passes_check hisValid hbound hpasses
  refine ⟨passes, hpasses, ⟨last, hgetLast, hcheck⟩, hstarts, ?elapsed, hrounds, ?round_lt,
    ?queries, ?patient, ?idle⟩
  case elapsed =>
    obtain ⟨number, queries, pending, hbegin, hask⟩ :=
      hpasses.began (fun hinv hask => hinv.next hask) hstart hmem
    have htime := hbegin.before.now_le hask
    have hlate := hstarts last hmem
    rw [hcheck]
    show last.after.now ≤ _
    unfold Duration at *
    omega
  case round_lt =>
    have hwait : c.policy.maxWait ≤ c.policy.pollInterval * 21600 :=
      hpolicy ▸ PollPolicy.maxWait_le_of_validate hvalid
    have hmost : (c.policy.maxWait - c.policy.initialDelay) ⌈/⌉ c.policy.pollInterval ≤ 21600 :=
      (ceilDiv_le_iff_le_mul hisValid.interval_pos).mpr (Nat.le_trans (Nat.sub_le ..) hwait)
    exact Nat.lt_of_le_of_lt (Nat.le_trans hrounds (Nat.succ_le_succ hmost)) (by decide)
  case queries =>
    rw [hcheck]
    intro t ht
    obtain ⟨p, hp, rfl⟩ := List.mem_map.mp ht
    rw [Nat.add_comm] at hend
    exact hend.queries_le hlength p hp
  case patient =>
    rw [hcheck]
    rintro ⟨t, ht, hverdict⟩
    obtain ⟨p, hp, rfl⟩ := List.mem_map.mp ht
    simp only [isLast, Bool.or_eq_true, decide_eq_true_eq, List.all_eq_true] at hisLast
    rcases hisLast with hdone | hlate
    · exact absurd (hend.clean_of_isDone p hp (hdone p hp)) hverdict
    · exact hlate
  case idle =>
    rintro rfl
    rw [check_nil]
    exact ⟨rfl, rfl⟩

/-- A client whose commands run longer than any query may. -/
def hangingClient : StatusClient := fun _ _ _ => ⟨.ok "", 600 * Duration.perSecond⟩

/-- The time is not overrun by less: here the last round starts when the time is over, and its only
query is stopped at its limit. -/
theorem check_keepsBudget_hangingClient :
    LeakCheckConfig.default.validate = .ok () ∧
      let c : LeakChecker := ⟨runningLines, .ofConfig .default, hangingClient⟩
      (∃ passes, c.KeepsBudget twoTargets passes) ∧ keyCount twoTargets = 1 ∧
        (c.check twoTargets).elapsed = c.policy.maxWait + 1 * c.policy.queryTimeout :=
  ⟨LeakCheckConfig.validate_default,
    check_keepsBudget LeakCheckConfig.validate_default runningLines hangingClient twoTargets,
    by decide +kernel, by decide +kernel⟩

end Check

end LeakChecker

end CiPlan
