import CiPlan.Proofs.Leaders

/-!
# How polling backs off

The pause after a round is doubled from round to round up to the longest one, whether it was made or
not; after a round with a failure the longest pause is made in its place.  Doubling would also stop at
the largest length of time, but no configured pause goes beyond that, so the longest pause is all that
stops it (`PollPolicy.nextInterval_iterate`).

When a round starts and ends, and whether it had a failure, can be read off the queries of a check.
`Underway.seen` says what is read there for one round, and by induction on the rounds it follows when
each of them starts: `check_backsOff`.
-/

namespace CiPlan

namespace PollPolicy

variable {p : PollPolicy}

/-- The first pause after so many doublings. -/
def doubled (p : PollPolicy) (count : Nat) : Duration :=
  min (p.pollInterval * 2 ^ count) p.maxPollInterval

/-- The pause after a round; the first one is 1. -/
def backOff (p : PollPolicy) (number : Nat) (failed : Bool) : Duration :=
  if failed then p.maxPollInterval else p.doubled (number - 1)

theorem doubled_zero (hle : p.pollInterval ≤ p.maxPollInterval) : p.doubled 0 = p.pollInterval := by
  rw [doubled, Nat.pow_zero, Nat.mul_one, Nat.min_eq_left hle]

/-- The largest length of time is never what stops a doubling. -/
theorem nextInterval_doubled (hlargest : p.maxPollInterval ≤ Duration.largest) (count : Nat) :
    p.nextInterval (p.doubled count) = p.doubled (count + 1) := by
  have htwice : p.pollInterval * 2 ^ (count + 1) = 2 * (p.pollInterval * 2 ^ count) := by
    rw [Nat.pow_succ, ← Nat.mul_assoc, Nat.mul_comm]
  rw [nextInterval, Duration.double, doubled, doubled, htwice]
  unfold Duration at *
  omega

theorem nextInterval_iterate (hle : p.pollInterval ≤ p.maxPollInterval)
    (hlargest : p.maxPollInterval ≤ Duration.largest) (count : Nat) :
    p.nextInterval^[count] p.pollInterval = p.doubled count := by
  induction count with
  | zero => exact (doubled_zero hle).symm
  | succ count ih => rw [Function.iterate_succ_apply', ih, nextInterval_doubled hlargest]

end PollPolicy

/-! ## Rounds in a list of queries -/

section Rounds

variable {number : Nat} {queries new : List Query}

/-- The queries of a round. -/
def queriesIn (number : Nat) (queries : List Query) : List Query :=
  queries.filter fun q => q.round = number

/-- When a round starts, by queries in their order. -/
def roundStart (queries : List Query) (number : Nat) : Option Duration :=
  (queriesIn number queries).head?.map (·.start)

/-- When a round ends. -/
def roundEnd (queries : List Query) (number : Nat) : Option Duration :=
  (queriesIn number queries).getLast?.map (·.finish)

/-- An answer of the round was a failure. -/
def roundFailed (queries : List Query) (number : Nat) : Bool :=
  (queriesIn number queries).any fun q => !q.answer.isOk

theorem queriesIn_eq_nil (h : ∀ q ∈ queries, q.round ≠ number) : queriesIn number queries = [] := by
  rw [queriesIn, List.filter_eq_nil_iff]
  exact fun q hq hround => h q hq (of_decide_eq_true hround)

theorem queriesIn_eq_self (h : ∀ q ∈ queries, q.round = number) :
    queriesIn number queries = queries := by
  rw [queriesIn, List.filter_eq_self]
  exact fun q hq => decide_eq_true (h q hq)

theorem roundStart_eq_none (h : ∀ q ∈ queries, q.round ≠ number) :
    roundStart queries number = none := by
  rw [roundStart, queriesIn_eq_nil h]
  rfl

theorem roundEnd_eq_none (h : ∀ q ∈ queries, q.round ≠ number) : roundEnd queries number = none := by
  rw [roundEnd, queriesIn_eq_nil h]
  rfl

/-- The queries of a round are found between those of later and of earlier rounds. -/
theorem queriesIn_reverse_append {later earlier : List Query}
    (hlater : ∀ q ∈ later, number < q.round) (hnew : ∀ q ∈ new, q.round = number)
    (hearlier : ∀ q ∈ earlier, q.round < number) :
    queriesIn number (later ++ (new ++ earlier)).reverse = new.reverse := by
  have hlate := queriesIn_eq_nil fun q hq => Nat.ne_of_gt (hlater q hq)
  have hearly := queriesIn_eq_nil fun q hq => Nat.ne_of_lt (hearlier q hq)
  rw [queriesIn] at hlate hearly
  rw [queriesIn, List.filter_reverse, List.filter_append, List.filter_append, hlate, hearly,
    List.nil_append, List.append_nil, ← queriesIn, queriesIn_eq_self hnew]

end Rounds

namespace LeakChecker

/-! ## One round -/

section Round

variable {c : LeakChecker}

@[simp]
theorem isOk_finding (q : Query) : (c.finding q).isOk = q.answer.isOk := by
  rw [finding]
  cases q.answer <;> rfl

theorem waiting_eq_nil_iff {pending : List Pending} :
    waiting pending = [] ↔ pending.all (·.isDone) = true := by
  simp [waiting]

theorem waiting_start (targets : List Profile) : waiting (targets.map Pending.start) = targets := by
  induction targets with
  | nil => rfl
  | cons p targets ih =>
      rw [List.map_cons, waiting_cons_of_not_isDone rfl, ih]
      rfl

/-- The check goes on as long as there is time and a target that waits. -/
theorem not_isLast_iff {r : Round} {pending : List Pending} :
    ¬ c.isLast r pending = true ↔ r.now < c.policy.maxWait ∧ waiting pending ≠ [] := by
  rw [isLast, Bool.or_eq_true, decide_eq_true_eq, ← waiting_eq_nil_iff, not_or, Nat.not_le]
  exact and_comm

/-- Asking about a target takes no time when it takes no query. -/
theorem ask_cases (r : Round) (p : Profile) :
    ((c.ask r p).1.queries = r.queries ∧ (c.ask r p).1.now = r.now) ∨
      (c.ask r p).1.queries = c.query r p :: r.queries := by
  unfold ask
  split
  · exact .inl ⟨rfl, rfl⟩
  · exact .inr rfl

/-- The first query of a round is made when the round starts. -/
theorem askAll_opens (pending : List Pending) :
    ∀ r : Round, ∃ new, (c.askAll r pending).1.queries = new ++ r.queries ∧
      ∀ q, new.getLast? = some q → q.start = r.now := by
  induction pending with
  | nil =>
      intro r
      exact ⟨[], rfl, by simp⟩
  | cons p pending ih =>
      intro r
      unfold askAll
      split
      · exact ih r
      · obtain ⟨new, hqueries, hfirst⟩ := ih (c.ask r p.profile).1
        rcases ask_cases (c := c) r p.profile with ⟨hsame, hnow⟩ | hone
        · rw [hsame] at hqueries
          rw [hnow] at hfirst
          exact ⟨new, hqueries, hfirst⟩
        · refine ⟨new ++ [c.query r p.profile], ?_, fun q hq => ?_⟩
          · rw [List.append_assoc, List.singleton_append, ← hone]
            exact hqueries
          · rw [List.getLast?_append, List.getLast?_singleton, Option.some_or,
              Option.some.injEq] at hq
            rw [← hq, start_query]

section Seen

variable {targets : List Profile} {number : Nat} {now interval : Duration}
  {queries later : List Query} {pending pending' : List Pending} {r : Round}

/-- A round of which some target waits is seen in its queries. -/
theorem Underway.asks (h : c.Underway targets number now queries pending)
    (hwaiting : waiting pending ≠ [])
    (hask : c.askAll ⟨number, now, queries, [], false⟩ pending = (r, pending')) :
    ∃ new, r.queries = new ++ queries ∧ (∀ q ∈ new, q.round = number) ∧
      new.getLast?.map (·.start) = some now ∧ new.head?.map (·.finish) = some r.now ∧
        r.failed = new.any fun q => !q.answer.isOk := by
  obtain ⟨new, hround, hr, -, hevery, -⟩ := exists_isRound h.before.asked h.before.past hask
  obtain ⟨new', hqueries', hfirst⟩ := askAll_opens (c := c) pending ⟨number, now, queries, [], false⟩
  have hqueries : r.queries = new ++ queries := congrArg Round.queries hr
  -- Both descriptions of the round are about the same queries.
  rw [hask] at hqueries'
  have hnew : new' = new := List.append_cancel_right (hqueries'.symm.trans hqueries)
  rw [hnew] at hfirst
  obtain ⟨u, hu⟩ := List.exists_mem_of_ne_nil _ hwaiting
  obtain ⟨p, hp, -⟩ := List.mem_map.mp hu
  obtain ⟨hmem, hdone⟩ := List.mem_filter.mp hp
  obtain ⟨q, hq, -⟩ := hevery p hmem (by simpa using hdone)
  have hne : new ≠ [] := List.ne_nil_of_mem hq
  refine ⟨new, hqueries, hround.round, ?_, ?_, ?_⟩
  · rw [List.getLast?_eq_some_getLast hne, Option.map_some,
      hfirst _ (List.getLast?_eq_some_getLast hne)]
  · rw [hr, roundAfter, List.head?_eq_some_head hne]
    rfl
  · rw [hr]
    simp only [roundAfter, isOk_finding]

/-- What is seen of a round in the queries of a whole check. -/
theorem Underway.seen (h : c.Underway targets number now queries pending)
    (hwaiting : waiting pending ≠ [])
    (hask : c.askAll ⟨number, now, queries, [], false⟩ pending = (r, pending'))
    (hlater : ∀ q ∈ later, number < q.round) :
    roundStart (later ++ r.queries).reverse number = some now ∧
      roundEnd (later ++ r.queries).reverse number = some r.now ∧
      roundFailed (later ++ r.queries).reverse number = r.failed ∧
      c.dueIn targets (later ++ r.queries).reverse (number + 1) = waiting pending' := by
  obtain ⟨new, hqueries, hnew, hstart, hfinish, hfailed⟩ := h.asks hwaiting hask
  have hin : queriesIn number (later ++ r.queries).reverse = new.reverse := by
    rw [hqueries]
    exact queriesIn_reverse_append hlater hnew h.round_lt
  refine ⟨?_, ?_, ?_, ?_⟩
  · rw [roundStart, hin, List.head?_reverse, hstart]
  · rw [roundEnd, hin, List.getLast?_reverse, hfinish]
  · rw [roundFailed, hin, List.any_reverse, hfailed]
  · rw [dueIn_reverse, dueIn_append (fun q hq => hlater q hq) r.queries (Nat.le_refl _)]
    exact (h.next hask r.now (Nat.le_refl _)).dueIn_eq

end Seen

end Round

/-! ## The rounds of a check -/

/-- When the round after one that ended at `finish` starts, if there is one. -/
def nextStart (c : LeakChecker) (targets : List Profile) (queries : List Query) (number : Nat)
    (finish : Duration) : Option Duration :=
  if finish < c.policy.maxWait ∧ c.dueIn targets queries (number + 1) ≠ [] then
    some (finish + min (c.policy.maxWait - finish)
      (c.policy.backOff number (roundFailed queries number)))
  else none

/-- The rounds of a check are made at these times. -/
structure BacksOff (c : LeakChecker) (targets : List Profile) : Prop where
  first : roundStart (c.check targets).queries 1 = some c.policy.initialDelay
  next : ∀ number finish, 1 ≤ number → roundEnd (c.check targets).queries number = some finish →
    roundStart (c.check targets).queries (number + 1) =
      c.nextStart targets (c.check targets).queries number finish
  /-- Doubling goes on up to the longest pause, and is stopped by nothing else. -/
  doubles : ∀ count, c.policy.nextInterval^[count] c.policy.pollInterval =
    min (c.policy.pollInterval * 2 ^ count) c.policy.maxPollInterval

/-- The rounds from one on that starts at `now`, after the queries `queries`, are made at the times of
the back-off.  The queries at the end of the check are `final`. -/
structure KeepsPace (c : LeakChecker) (targets : List Profile) (number : Nat) (now : Duration)
    (queries final : List Query) : Prop where
  grows : ∃ later, final = later ++ queries ∧ ∀ q ∈ later, number ≤ q.round
  starts : roundStart final.reverse number = some now
  next : ∀ k finish, number ≤ k → roundEnd final.reverse k = some finish →
    roundStart final.reverse (k + 1) = c.nextStart targets final.reverse k finish

section Pace

variable {c : LeakChecker} {targets : List Profile} {number : Nat} {now interval : Duration}
  {queries : List Query} {pending pending' : List Pending} {r : Round} {passes : List Pass}

/-- No round is made after one that ends the check. -/
theorem Underway.keepsPace_last (h : c.Underway targets number now queries pending)
    (hwaiting : waiting pending ≠ [])
    (hask : c.askAll ⟨number, now, queries, [], false⟩ pending = (r, pending'))
    (hlast : c.isLast r pending' = true) : c.KeepsPace targets number now queries r.queries := by
  obtain ⟨new, hqueries, hnew, -⟩ := h.asks hwaiting hask
  have hnone : ∀ q ∈ ([] : List Query), number < q.round := by simp
  have hseen := h.seen hwaiting hask hnone
  rw [List.nil_append] at hseen
  obtain ⟨hstart, hend, -, hdue⟩ := hseen
  have hover : ∀ k, number < k → ∀ q ∈ r.queries.reverse, q.round ≠ k := by
    intro k hk q hq
    have := (h.next hask r.now (Nat.le_refl _)).round_lt q (List.mem_reverse.mp hq)
    omega
  refine ⟨⟨new, hqueries, fun q hq => Nat.le_of_eq (hnew q hq).symm⟩, hstart, ?_⟩
  intro k finish hk hfinish
  rcases Nat.eq_or_lt_of_le hk with rfl | hk
  · have hnow : r.now = finish := Option.some.inj (hend.symm.trans hfinish)
    rw [roundStart_eq_none (hover _ (Nat.lt_succ_self _)), nextStart, hdue, ← hnow,
      if_neg fun hleft => not_isLast_iff.mpr hleft hlast]
  · rw [roundEnd_eq_none (hover k hk)] at hfinish
    cases hfinish

/-- The round after one that does not end the check starts when its pause is over. -/
theorem Underway.keepsPace_next (h : c.Underway targets number now queries pending)
    (hwaiting : waiting pending ≠ [])
    (hask : c.askAll ⟨number, now, queries, [], false⟩ pending = (r, pending'))
    (hlast : ¬ c.isLast r pending' = true) (hinterval : interval = c.policy.doubled (number - 1))
    {final : List Query}
    (hrest : c.KeepsPace targets (number + 1) (r.now + c.pause r interval) r.queries final) :
    c.KeepsPace targets number now queries final := by
  obtain ⟨new, hqueries, hnew, -⟩ := h.asks hwaiting hask
  obtain ⟨later, hfinal, hlater⟩ := hrest.grows
  obtain ⟨hstart, hend, hfailed, hdue⟩ := h.seen hwaiting hask hlater
  rw [← hfinal] at hstart hend hfailed hdue
  refine ⟨⟨later ++ new, ?_, fun q hq => ?_⟩, hstart, ?_⟩
  · rw [hfinal, hqueries, List.append_assoc]
  · rcases List.mem_append.mp hq with hq | hq
    · exact Nat.le_of_succ_le (hlater q hq)
    · exact Nat.le_of_eq (hnew q hq).symm
  intro k finish hk hfinish
  rcases Nat.eq_or_lt_of_le hk with rfl | hk
  · have hnow : r.now = finish := Option.some.inj (hend.symm.trans hfinish)
    have hpause : c.pause r interval =
        min (c.policy.maxWait - r.now) (c.policy.backOff number r.failed) := by
      rw [pause, hinterval, Nat.min_comm, PollPolicy.backOff]
    rw [hrest.starts, nextStart, hdue, hfailed, ← hnow, hpause,
      if_pos (not_isLast_iff.mp hlast)]
  · exact hrest.next k finish hk hfinish

theorem Passes.keepsPace (h : c.Passes number now interval queries pending passes)
    (hlargest : c.policy.maxPollInterval ≤ Duration.largest) (hpos : 1 ≤ number)
    (hinterval : interval = c.policy.doubled (number - 1))
    (hbegun : c.Underway targets number now queries pending) (hwaiting : waiting pending ≠ []) :
    ∃ last, passes.getLast? = some last ∧
      c.KeepsPace targets number now queries last.after.queries := by
  induction h with
  | last hask hlast => exact ⟨_, rfl, hbegun.keepsPace_last hwaiting hask hlast⟩
  | @next number now interval queries pending r pending' passes hask hlast h ih =>
      have hdoubled : c.policy.nextInterval interval = c.policy.doubled (number + 1 - 1) := by
        rw [hinterval, PollPolicy.nextInterval_doubled hlargest]
        congr 1
        omega
      obtain ⟨last, hgetLast, hrest⟩ := ih (Nat.succ_pos number) hdoubled
        (hbegun.next hask _ (Nat.le_add_right ..)) (not_isLast_iff.mp hlast).2
      refine ⟨last, ?_, hbegun.keepsPace_next hwaiting hask hlast hinterval hrest⟩
      rw [List.getLast?_cons, hgetLast]
      rfl

end Pace

/-- Every check of some targets makes its first round after the initial delay, and goes on with the
back-off: by the pause that has doubled with every round, or the longest one after a failure, but not
beyond the time that is left. -/
theorem check_backsOff [Formats] {config : LeakCheckConfig} (hvalid : config.validate = .ok ())
    (parser : StatusParser) (client : StatusClient) {targets : List Profile}
    (htargets : targets ≠ []) :
    LeakChecker.BacksOff ⟨parser, .ofConfig config, client⟩ targets := by
  obtain ⟨c, hc⟩ : ∃ c : LeakChecker, c = ⟨parser, .ofConfig config, client⟩ := ⟨_, rfl⟩
  rw [← hc]
  have hpolicy : c.policy = .ofConfig config := by rw [hc]
  have hisValid : c.policy.IsValid := hpolicy ▸ LeakCheckConfig.isValid_of_validate hvalid
  have hlargest : c.policy.maxPollInterval ≤ Duration.largest :=
    hpolicy ▸ Duration.ofSecs_le_largest config.maxPollIntervalSecs
  have hwaiting : waiting (targets.map Pending.start) ≠ [] := by rwa [waiting_start]
  have hstart : c.firstStart targets = c.policy.initialDelay := by
    rw [firstStart, if_neg (by simpa using htargets), Nat.min_eq_left hisValid.delay_le]
  obtain ⟨passes, last, hpasses, hgetLast, hcheck⟩ := exists_passes_check targets hisValid
  obtain ⟨last', hgetLast', hpace⟩ := hpasses.keepsPace hlargest (Nat.le_refl 1)
    (PollPolicy.doubled_zero hisValid.interval_le).symm (c.underway_start targets _) hwaiting
  rw [hgetLast] at hgetLast'
  cases hgetLast'
  have hqueries : (c.check targets).queries = last.after.queries.reverse := by rw [hcheck]
  refine ⟨?_, ?_, PollPolicy.nextInterval_iterate hisValid.interval_le hlargest⟩
  · rw [hqueries, hpace.starts, hstart]
  · rw [hqueries]
    exact hpace.next

/-- The longest pause follows the failure in the first round.  The pause after the second round is
twice the first one, which was not made, and the third round shows that nothing is left. -/
theorem check_backsOff_recoveringClient :
    LeakCheckConfig.default.validate = .ok () ∧ twoTargets ≠ [] ∧
      let c : LeakChecker := ⟨runningLines, .ofConfig .default, recoveringClient⟩
      let queries := (c.check twoTargets).queries
      roundStart queries 1 = some (30 * Duration.perSecond) ∧
        roundEnd queries 1 = some (35 * Duration.perSecond) ∧
        roundStart queries 2 = some ((35 + 120) * Duration.perSecond) ∧
        roundEnd queries 2 = some (155200 * Duration.perMilli) ∧
        roundStart queries 3 = some ((155200 + 30000) * Duration.perMilli) ∧
        roundStart queries 4 = none := by
  have htargets : twoTargets ≠ [] := by decide
  refine ⟨LeakCheckConfig.validate_default, htargets, ?_⟩
  intro c queries
  obtain ⟨hfirst, hnext, -⟩ :=
    check_backsOff LeakCheckConfig.validate_default runningLines recoveringClient htargets
  have hend1 : roundEnd queries 1 = some (35 * Duration.perSecond) := by decide +kernel
  have hend2 : roundEnd queries 2 = some (155200 * Duration.perMilli) := by decide +kernel
  have hend3 : roundEnd queries 3 = some (185400 * Duration.perMilli) := by decide +kernel
  refine ⟨hfirst.trans (by decide +kernel), hend1, ?_, hend2, ?_, ?_⟩
  · exact (hnext 1 _ (by decide) hend1).trans (by decide +kernel)
  · exact (hnext 2 _ (by decide) hend2).trans (by decide +kernel)
  · exact (hnext 3 _ (by decide) hend3).trans (by decide +kernel)

end LeakChecker

end CiPlan
