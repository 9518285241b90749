import CiPlan.Proofs.Round
import CiPlan.Proofs.Validate
import Mathlib.Data.List.Forall2

/-!
# The leak check from its start to its end

A check goes through rounds until every target is done or the time is up.  `Passes` lists the rounds
of this loop, and for times that passed the check of a configuration it comes to an end
(`exists_passes`).  `rounds_rule` is the rule for it: what holds before the first round and is kept by
every round holds when the loop ends.

Targets with the same key hear the same answers, so the history of a target is the list of answers
to its key.  `BeforeRound` says how the targets and the history belong together at the start of a
round; it is kept (`BeforeRound.next`), and at the end of a check it gives the verdict on each
target:

* `check_spec` — the result of a check in terms of its queries;
* `reports_of_told` — the verdict of one target is exact;
* `check_reports` — every check reports exactly what its queries were answered.
-/

namespace CiPlan

namespace LeakChecker

/-! ## The rule of the loop -/

section Rule

variable {c : LeakChecker}

theorem now_le_ask (r : Round) (p : Profile) : r.now ≤ (c.ask r p).1.now := by
  unfold ask
  split
  · exact Nat.le_refl _
  · exact c.now_le_finish_query r p

theorem now_le_askAll (pending : List Pending) :
    ∀ r : Round, r.now ≤ (c.askAll r pending).1.now := by
  induction pending with
  | nil =>
      intro r
      exact Nat.le_refl _
  | cons p pending ih =>
      intro r
      unfold askAll
      split
      · exact ih r
      · exact Nat.le_trans (now_le_ask r p.profile) (ih _)

/-- No further round follows a round that ended like this. -/
def isLast (c : LeakChecker) (r : Round) (pending : List Pending) : Bool :=
  pending.all (·.isDone) || c.policy.maxWait ≤ r.now

/-- The pause after a round. -/
def pause (c : LeakChecker) (r : Round) (interval : Duration) : Duration :=
  min (if r.failed then c.policy.maxPollInterval else interval) (c.policy.maxWait - r.now)

theorem pause_pos {r : Round} {interval : Duration} (hmax : 0 < c.policy.maxPollInterval)
    (hinterval : 0 < interval) (hnow : r.now < c.policy.maxWait) : 0 < c.pause r interval := by
  have hchoice : 0 < if r.failed then c.policy.maxPollInterval else interval := by
    split <;> assumption
  rw [pause]
  unfold Duration at *
  omega

section Outcome

variable {number : Nat} {now : Duration} {queries : List Query} {pending pending' : List Pending}
  {r : Round}

theorem now_le_of_askAll
    (hask : c.askAll ⟨number, now, queries, [], false⟩ pending = (r, pending')) : now ≤ r.now := by
  have h := now_le_askAll (c := c) pending ⟨number, now, queries, [], false⟩
  rw [hask] at h
  exact h

theorem rounds_of_isLast (fuel : Nat) (interval : Duration)
    (hask : c.askAll ⟨number, now, queries, [], false⟩ pending = (r, pending'))
    (hlast : c.isLast r pending' = true) :
    c.rounds fuel number now interval queries pending = (r, pending') := by
  rw [rounds, hask]
  exact if_pos hlast

theorem rounds_succ (fuel : Nat) (interval : Duration)
    (hask : c.askAll ⟨number, now, queries, [], false⟩ pending = (r, pending'))
    (hlast : ¬ c.isLast r pending' = true) :
    c.rounds (fuel + 1) number now interval queries pending =
      c.rounds fuel (number + 1) (r.now + c.pause r interval) (c.policy.nextInterval interval)
        r.queries pending' := by
  rw [rounds, hask]
  exact if_neg hlast

end Outcome

/-- A round that was made. -/
structure Pass where
  start : Duration
  /-- What is known at its end. -/
  after : Round
  /-- The targets at its end. -/
  targets : List Pending

/-- The loop from a round on, without a bound on the number of rounds: it makes these rounds, of which
no other than the last ends it. -/
inductive Passes (c : LeakChecker) :
    (number : Nat) → (now interval : Duration) → List Query → List Pending → List Pass → Prop
  | last {number now interval queries pending r pending'}
      (hask : c.askAll ⟨number, now, queries, [], false⟩ pending = (r, pending'))
      (hlast : c.isLast r pending' = true) :
      Passes c number now interval queries pending [⟨now, r, pending'⟩]
  | next {number now interval queries pending r pending' passes}
      (hask : c.askAll ⟨number, now, queries, [], false⟩ pending = (r, pending'))
      (hlast : ¬ c.isLast r pending' = true)
      (h : Passes c (number + 1) (r.now + c.pause r interval) (c.policy.nextInterval interval)
        r.queries pending' passes) :
      Passes c number now interval queries pending (⟨now, r, pending'⟩ :: passes)

theorem lt_maxWait_of_not_isLast {r : Round} {pending : List Pending}
    (h : ¬ c.isLast r pending = true) : r.now < c.policy.maxWait := by
  simp only [isLast, Bool.or_eq_true, decide_eq_true_eq, not_or] at h
  exact Nat.lt_of_not_le h.2

/-- The loop comes to an end.  The fuel is enough since every pause lasts. -/
theorem exists_passes (hmax : 0 < c.policy.maxPollInterval) :
    ∀ fuel number now interval queries pending, c.policy.maxWait - now ≤ fuel → 0 < interval →
      ∃ passes last, c.Passes number now interval queries pending passes ∧
        passes.getLast? = some last ∧
          c.rounds fuel number now interval queries pending = (last.after, last.targets) := by
  intro fuel
  induction fuel with
  | zero =>
      intro number now interval queries pending hfuel hinterval
      cases hask : c.askAll ⟨number, now, queries, [], false⟩ pending with
      | mk r pending' =>
          have hwait : c.policy.maxWait ≤ now := Nat.sub_eq_zero_iff_le.mp (Nat.le_zero.mp hfuel)
          have hlate : c.policy.maxWait ≤ r.now := Nat.le_trans hwait (now_le_of_askAll hask)
          have hlast : c.isLast r pending' = true := by simp [isLast, hlate]
          exact ⟨_, _, .last hask hlast, rfl, rounds_of_isLast 0 interval hask hlast⟩
  | succ fuel ih =>
      intro number now interval queries pending hfuel hinterval
      cases hask : c.askAll ⟨number, now, queries, [], false⟩ pending with
      | mk r pending' =>
          by_cases hlast : c.isLast r pending' = true
          · exact ⟨_, _, .last hask hlast, rfl, rounds_of_isLast (fuel + 1) interval hask hlast⟩
          · have hnow := now_le_of_askAll hask
            have hpause := pause_pos hmax hinterval (lt_maxWait_of_not_isLast hlast)
            have hless : c.policy.maxWait - (r.now + c.pause r interval) ≤ fuel := by
              unfold Duration at *
              omega
            obtain ⟨passes, last, hpasses, hgetLast, hrun⟩ :=
              ih (number + 1) (r.now + c.pause r interval) (c.policy.nextInterval interval) r.queries
                pending' hless (c.policy.nextInterval_pos hmax hinterval)
            refine ⟨_, last, .next hask hlast hpasses, ?_,
              (rounds_succ fuel interval hask hlast).trans hrun⟩
            rw [List.getLast?_cons, hgetLast]
            rfl

section Kept

variable {Inv : Nat → Duration → List Query → List Pending → Prop} {number : Nat}
  {now interval : Duration} {queries : List Query} {pending : List Pending} {passes : List Pass}

/-- What every round keeps holds when the loop ends, and a last round has ended it. -/
theorem Passes.kept (h : c.Passes number now interval queries pending passes)
    (step : ∀ {number now queries pending r pending'}, Inv number now queries pending →
      c.askAll ⟨number, now, queries, [], false⟩ pending = (r, pending') →
        ∀ later, r.now ≤ later → Inv (number + 1) later r.queries pending')
    (hinv : Inv number now queries pending) :
    ∃ last, passes.getLast? = some last ∧
      Inv (number + passes.length) last.after.now last.after.queries last.targets ∧
        c.isLast last.after last.targets = true := by
  induction h with
  | last hask hlast => exact ⟨_, rfl, step hinv hask _ (Nat.le_refl _), hlast⟩
  | next hask hlast h ih =>
      obtain ⟨last, hgetLast, hend, hisLast⟩ := ih (step hinv hask _ (Nat.le_add_right ..))
      refine ⟨last, ?_, ?_, hisLast⟩
      · rw [List.getLast?_cons, hgetLast]
        rfl
      · rw [List.length_cons, Nat.add_comm _ 1, ← Nat.add_assoc]
        exact hend

/-- What every round keeps holds when a round begins. -/
theorem Passes.began (h : c.Passes number now interval queries pending passes)
    (step : ∀ {number now queries pending r pending'}, Inv number now queries pending →
      c.askAll ⟨number, now, queries, [], false⟩ pending = (r, pending') →
        ∀ later, r.now ≤ later → Inv (number + 1) later r.queries pending')
    (hinv : Inv number now queries pending) {pass : Pass} (hpass : pass ∈ passes) :
    ∃ number queries pending, Inv number pass.start queries pending ∧
      c.askAll ⟨number, pass.start, queries, [], false⟩ pending = (pass.after, pass.targets) := by
  induction h with
  | @last number now interval queries pending r pending' hask hlast =>
      rw [List.mem_singleton.mp hpass]
      exact ⟨number, queries, pending, hinv, hask⟩
  | @next number now interval queries pending r pending' passes hask hlast h ih =>
      rcases List.mem_cons.mp hpass with rfl | hpass
      · exact ⟨number, queries, pending, hinv, hask⟩
      · exact ih (step hinv hask _ (Nat.le_add_right ..)) hpass

end Kept

/-- What every round keeps holds at the end of the rounds. -/
theorem rounds_rule (hmax : 0 < c.policy.maxPollInterval)
    (Inv : Nat → Duration → List Query → List Pending → Prop)
    (step : ∀ {number now queries pending r pending'}, Inv number now queries pending →
      c.askAll ⟨number, now, queries, [], false⟩ pending = (r, pending') →
        ∀ later, r.now ≤ later → Inv (number + 1) later r.queries pending') :
    ∀ fuel number now interval queries pending, c.policy.maxWait - now ≤ fuel → 0 < interval →
      Inv number now queries pending → ∃ last r pending', number ≤ last ∧
        c.rounds fuel number now interval queries pending = (r, pending') ∧
          Inv (last + 1) r.now r.queries pending' ∧ c.isLast r pending' = true := by
  intro fuel number now interval queries pending hfuel hinterval hinv
  obtain ⟨passes, last, hpasses, hgetLast, hrun⟩ :=
    exists_passes hmax fuel number now interval queries pending hfuel hinterval
  obtain ⟨last', hgetLast', hend, hisLast⟩ := hpasses.kept step hinv
  rw [hgetLast] at hgetLast'
  cases hgetLast'
  have hlength : 0 < passes.length := List.length_pos_iff.mpr fun hnil => by
    rw [hnil] at hgetLast
    cases hgetLast
  refine ⟨number + passes.length - 1, last.after, last.targets, by omega, hrun, ?_, hisLast⟩
  rw [Nat.sub_add_cancel (by omega)]
  exact hend

end Rule

/-! ## What is kept -/

/-- The history of a key before a round. -/
structure Told (c : LeakChecker) (number : Nat) (key : QueryKey) (queries : List Query) : Prop where
  /-- Nothing was asked after an answer that shows nothing leaked. -/
  clean : .ok [] ∉ (c.answersTo key queries).tail
  /-- There was one query in each round up to the latest one. -/
  rounds : (queriesFor key queries).map (·.round) =
    (List.range' 1 (c.answersTo key queries).length).reverse
  /-- Without such an answer, there was a query in every round. -/
  due : .ok [] ∉ c.answersTo key queries → (c.answersTo key queries).length + 1 = number

theorem told_nil (c : LeakChecker) (key : QueryKey) : c.Told 1 key [] :=
  ⟨by simp [answersTo, queriesFor], rfl, fun _ => rfl⟩

section Kept

variable {c : LeakChecker} {number : Nat} {now : Duration} {old new : List Query} {key : QueryKey}

/-- A round asks for the keys that have no answer that shows nothing leaked, once for each. -/
theorem Told.append (h : c.Told number key old) (hround : c.IsRound number now old new)
    (hdue : key ∈ new.map Query.key ↔ .ok [] ∉ c.answersTo key old) :
    c.Told (number + 1) key (new ++ old) := by
  by_cases hclean : .ok [] ∈ c.answersTo key old
  · have hnone : queriesFor key new = [] := queriesFor_eq_nil fun hmem => hdue.mp hmem hclean
    have hanswers : c.answersTo key (new ++ old) = c.answersTo key old := by
      rw [answersTo, queriesFor_append, hnone, List.nil_append, answersTo]
    refine ⟨hanswers ▸ h.clean, ?_, fun hnot => absurd (hanswers ▸ hclean) hnot⟩
    rw [queriesFor_append, hnone, List.nil_append, hanswers]
    exact h.rounds
  · obtain ⟨q, hq, hkey⟩ := List.mem_map.mp (hdue.mpr hclean)
    have hone : queriesFor key new = [q] := queriesFor_eq_singleton hround.nodup hq hkey
    have hanswers : c.answersTo key (new ++ old) = c.finding q :: c.answersTo key old := by
      rw [answersTo_append, answersTo, hone]
      rfl
    have hlen := h.due hclean
    refine ⟨by rw [hanswers]; exact hclean, ?_, fun _ => ?_⟩
    · have hnumber : q.round = 1 + 1 * (c.answersTo key old).length := by
        rw [hround.round q hq]
        omega
      rw [queriesFor_append, hone, hanswers, List.length_cons, List.range'_concat,
        List.reverse_append, List.map_append, h.rounds, List.map_singleton, hnumber]
      rfl
    · rw [hanswers, List.length_cons]
      omega

/-- Before a round each target is what its key's answers make of it. -/
structure BeforeRound (c : LeakChecker) (targets : List Profile) (number : Nat) (now : Duration)
    (queries : List Query) (pending : List Pending) : Prop where
  asked : c.Asked queries
  past : ∀ q ∈ queries, q.finish ≤ now
  pending : pending = targets.map fun p => (Pending.start p).hearAll (c.answersTo (.of p) queries)
  told : ∀ p ∈ targets, c.Told number (.of p) queries

theorem beforeRound_start (c : LeakChecker) (targets : List Profile) (now : Duration) :
    c.BeforeRound targets 1 now [] (targets.map Pending.start) :=
  ⟨.nil, by simp, rfl, fun p _ => c.told_nil (.of p)⟩

/-- A round keeps the history and the targets together. -/
theorem BeforeRound.next {targets : List Profile} {pending pending' : List Pending} {r : Round}
    (h : c.BeforeRound targets number now old pending)
    (hask : c.askAll ⟨number, now, old, [], false⟩ pending = (r, pending')) :
    ∀ later, r.now ≤ later → c.BeforeRound targets (number + 1) later r.queries pending' := by
  obtain ⟨new, hround, rfl, rfl, hevery, honly⟩ := exists_isRound h.asked h.past hask
  have hdone : ∀ p : Profile, ((Pending.start p).hearAll (c.answersTo (.of p) old)).isDone = false ↔
      .ok [] ∉ c.answersTo (.of p) old := by
    intro p
    rw [← Bool.not_eq_true, Pending.isDone_start_hearAll]
  -- Targets with one key have the same answers, so they are done together.
  have hdue : ∀ p ∈ targets, (.of p ∈ new.map Query.key ↔ .ok [] ∉ c.answersTo (.of p) old) := by
    intro p hp
    constructor
    · intro hmem
      obtain ⟨q, hq, hkey⟩ := List.mem_map.mp hmem
      obtain ⟨u, hu, hudone, hukey⟩ := honly q hq
      rw [h.pending] at hu
      obtain ⟨p', -, rfl⟩ := List.mem_map.mp hu
      rw [Pending.profile_hearAll] at hukey
      have hsame : QueryKey.of p' = .of p := hukey.symm.trans hkey
      rw [← hsame]
      exact (hdone p').mp hudone
    · intro hnot
      have hmem : (Pending.start p).hearAll (c.answersTo (.of p) old) ∈ pending := by
        rw [h.pending]
        exact List.mem_map_of_mem hp
      obtain ⟨q, hq, hkey⟩ := hevery _ hmem ((hdone p).mpr hnot)
      rw [Pending.profile_hearAll] at hkey
      exact List.mem_map.mpr ⟨q, hq, hkey⟩
  intro later hlater
  refine ⟨hround.asked, fun q hq => Nat.le_trans (hround.past q hq) hlater, ?_,
    fun p hp => (h.told p hp).append hround (hdue p hp)⟩
  rw [h.pending, List.map_map]
  refine List.map_congr_left fun p hp => ?_
  show c.heard new ((Pending.start p).hearAll (c.answersTo (.of p) old)) =
    (Pending.start p).hearAll (c.answersTo (.of p) (new ++ old))
  rw [answersTo_append, Pending.hearAll_append, heard, Pending.profile_hearAll]
  by_cases hclean : .ok [] ∈ c.answersTo (.of p) old
  · have hnone : queriesFor (.of p) new = [] :=
      queriesFor_eq_nil fun hmem => (hdue p hp).mp hmem hclean
    have hanswers : c.answersTo (.of p) new = [] := by
      rw [answersTo, hnone, List.map_nil]
    rw [if_pos ((Pending.isDone_start_hearAll p _).mpr hclean), hanswers]
    rfl
  · rw [if_neg fun hd => hclean ((Pending.isDone_start_hearAll p _).mp hd)]
    rfl

end Kept

/-! ## Reports -/

/-- A report on a target is exact for the queries of a check, when `leaked` gives the leaked resources
of a listing. -/
structure Reports (leaked : String → List Resource) (queries : List Query) (p : Profile)
    (t : TargetReport) : Prop where
  profile : t.profile = p.name
  target : t.target = p.target
  asked : 1 ≤ t.queries
  /-- The target was asked about, by itself or by another of its key, in each round up to its last one
  and in no later one. -/
  rounds : (queries.filter fun q => q.IsAbout p).map (·.round) = List.range' 1 t.queries
  /-- The verdict follows from what these queries were answered. -/
  verdict : t.verdict.Follows leaked ((queries.filter fun q => q.IsAbout p).map (·.answer))
  completed : t.verdict ≠ .inconclusive "no query completed"

private theorem head?_append {s t : String} {ch : Char} (h : s.toList.head? = some ch) :
    (s ++ t).toList.head? = some ch := by
  rw [String.toList_append, List.head?_append, h]
  rfl

/-- No failure of a query has the wording of a missing answer. -/
theorem message_ne_noQuery (e : LeakCheckError) : e.message ≠ "no query completed" := by
  have hword : "no query completed".toList.head? = some 'n' := by decide
  have hhead : e.message.toList.head? ≠ some 'n' := by
    cases e with
    | spawn profile reason =>
        have h : (LeakCheckError.spawn profile reason).message.toList.head? = some 'f' :=
          head?_append (head?_append (head?_append (by decide)))
        simp [h]
    | query profile reason =>
        have h : (LeakCheckError.query profile reason).message.toList.head? = some 's' :=
          head?_append (head?_append (head?_append (by decide)))
        simp [h]
    | timeout profile secs =>
        have h : (LeakCheckError.timeout profile secs).message.toList.head? = some 's' :=
          head?_append (head?_append (head?_append (head?_append (by decide))))
        simp [h]
    | noStatusCommand profile =>
        have h : (LeakCheckError.noStatusCommand profile).message.toList.head? = some 'p' :=
          head?_append (head?_append (by decide))
        simp [h]
    | pattern field fault =>
        have h : (LeakCheckError.pattern field fault).message.toList.head? = some 'i' :=
          head?_append (head?_append (head?_append (by decide)))
        simp [h]
  intro h
  rw [h] at hhead
  exact hhead hword

/-- What a target hears is what is read in the answers of its queries. -/
theorem answersTo_eq (c : LeakChecker) (key : QueryKey) (queries : List Query) :
    c.answersTo key queries =
      ((queriesFor key queries).map (·.answer)).map (Finding.ofAnswer c.parser.leaked) := by
  rw [List.map_map]
  rfl

/-- The report on a target whose history was kept is exact. -/
theorem reports_of_told {c : LeakChecker} {last : Nat} {queries : List Query} {p : Profile}
    (hlast : 1 ≤ last) (h : c.Told (last + 1) (.of p) queries) :
    Reports c.parser.leaked queries.reverse p
      ((Pending.start p).hearAll (c.answersTo (.of p) queries)).report := by
  have hne : c.answersTo (.of p) queries ≠ [] := by
    intro hnil
    have hlen := h.due (by simp [hnil])
    rw [hnil, List.length_nil] at hlen
    omega
  have hqueries : ((Pending.start p).hearAll (c.answersTo (.of p) queries)).queries =
      (c.answersTo (.of p) queries).length := by
    rw [Pending.queries_hearAll]
    exact Nat.zero_add _
  have hexact := @Pending.isExact_conclusion p (c.answersTo (.of p) queries).reverse
    (by simpa using hne) (by simpa using h.clean)
  rw [List.reverse_reverse, ← answersTo_reverse, answersTo_eq] at hexact
  have hfollows := hexact.follows
  refine ⟨by simp [Pending.report, Pending.start], by simp [Pending.report, Pending.start], ?asked,
    ?rounds, ?verdict, ?completed⟩
  case asked =>
    show 1 ≤ ((Pending.start p).hearAll (c.answersTo (.of p) queries)).queries
    rw [hqueries]
    exact List.length_pos_of_ne_nil hne
  case rounds =>
    show (queries.reverse.filter fun q => q.IsAbout p).map (·.round) =
      List.range' 1 ((Pending.start p).hearAll (c.answersTo (.of p) queries)).queries
    rw [filter_isAbout, hqueries, queriesFor, List.filter_reverse, List.map_reverse, ← queriesFor,
      h.rounds, List.reverse_reverse]
  case verdict =>
    rw [filter_isAbout]
    exact hfollows
  case completed =>
    intro hverdict
    obtain ⟨e, -, he⟩ := hfollows.inconclusive_eq _ hverdict
    exact message_ne_noQuery e he.symm

/-- The result of a check in terms of its queries, which are listed latest first. -/
theorem check_spec {c : LeakChecker} (hvalid : c.policy.IsValid) (targets : List Profile) :
    ∃ last queries, 1 ≤ last ∧ c.Asked queries ∧
      (∀ p ∈ targets, c.Told (last + 1) (.of p) queries) ∧
      (c.check targets).queries = queries.reverse ∧
      (c.check targets).report.targets = targets.map (fun p =>
        ((Pending.start p).hearAll (c.answersTo (.of p) queries)).report) ∧
      ((∀ p ∈ targets, .ok [] ∈ c.answersTo (.of p) queries) ∨
        c.policy.maxWait ≤ (c.check targets).elapsed) := by
  obtain ⟨last, r, pending, hle, hrun, hend, hlast⟩ := rounds_rule
    (Nat.lt_of_lt_of_le hvalid.interval_pos hvalid.interval_le) (c.BeforeRound targets)
    (fun hinv hask => hinv.next hask) (c.policy.maxWait + 1) 1
    (if targets.isEmpty then 0 else min c.policy.initialDelay c.policy.maxWait)
    c.policy.pollInterval [] (targets.map Pending.start)
    (Nat.le_succ_of_le (Nat.sub_le ..)) hvalid.interval_pos (c.beforeRound_start targets _)
  have hcheck : c.check targets = ⟨⟨pending.map Pending.report⟩, r.queries.reverse, r.now⟩ := by
    rw [check, hrun]
  rw [hcheck]
  refine ⟨last, r.queries, hle, hend.asked, hend.told, rfl, ?_, ?_⟩
  · show pending.map Pending.report = _
    rw [hend.pending, List.map_map]
    rfl
  · simp only [isLast, Bool.or_eq_true, decide_eq_true_eq, List.all_eq_true] at hlast
    refine hlast.imp_left fun hdone p hp => ?_
    rw [← Pending.isDone_start_hearAll p]
    refine hdone _ ?_
    rw [hend.pending]
    exact List.mem_map_of_mem hp

/-- The queries of a check were made of the client. -/
theorem asked_check {c : LeakChecker} (hvalid : c.policy.IsValid) (targets : List Profile) :
    c.Asked (c.check targets).queries.reverse := by
  obtain ⟨last, queries, -, hasked, -, hqueries, -⟩ := check_spec hvalid targets
  rw [hqueries, List.reverse_reverse]
  exact hasked

/-- A leak check reports on each target, in order, exactly what its queries were answered: by the
client, or by the time limit when the client took longer.  It ends only when every target is clean or
the time is up. -/
theorem check_reports [Formats] {config : LeakCheckConfig} (hvalid : config.validate = .ok ())
    (parser : StatusParser) (client : StatusClient) (targets : List Profile) :
    let c : LeakChecker := ⟨parser, .ofConfig config, client⟩
    (∀ before q after, (c.check targets).queries = before ++ q :: after →
        Answered client config.queryTimeoutSecs before.reverse q) ∧
      List.Forall₂ (Reports parser.leaked (c.check targets).queries) targets
        (c.check targets).report.targets ∧
      ((∀ t ∈ (c.check targets).report.targets, t.verdict = .clean) ∨
        Duration.ofSecs config.maxWaitSecs ≤ (c.check targets).elapsed) := by
  intro c
  obtain ⟨last, queries, hlast, hasked, htold, hqueries, htargets, hend⟩ :=
    check_spec (c := c) (LeakCheckConfig.isValid_of_validate hvalid) targets
  have hreports : ∀ p ∈ targets, Reports parser.leaked queries.reverse p
      ((Pending.start p).hearAll (c.answersTo (.of p) queries)).report :=
    fun p hp => reports_of_told hlast (htold p hp)
  rw [hqueries, htargets]
  refine ⟨fun before q after hsplit => ?_, ?_, ?_⟩
  · have hlatest : queries = after.reverse ++ q :: before.reverse := by
      rw [← List.reverse_reverse queries, hsplit]
      simp
    exact hasked.answered rfl hlatest
  · rw [List.forall₂_map_right_iff, List.forall₂_same]
    exact hreports
  · refine hend.imp_left fun hclean t ht => ?_
    obtain ⟨p, hp, rfl⟩ := List.mem_map.mp ht
    have hverdict : ((Pending.start p).hearAll (c.answersTo (.of p) queries)).verdict =
        some .clean := by
      rw [Pending.verdict_start_hearAll, if_pos (hclean p hp)]
    simp [Pending.report, Pending.conclusion, hverdict]

/-- A parser for which every line is a running resource of the run. -/
def runningLines : StatusParser := ⟨fun line => some ⟨line, "UP"⟩, fun _ => true, ["UP"]⟩

/-- A client that shows a failure, then a running resource and then nothing. -/
def recoveringClient : StatusClient := fun earlier p _ =>
  match earlier with
  | [] => ⟨.error (.query p.name "exit status: 1"), 5 * Duration.perSecond⟩
  | [_] => ⟨.ok "cluster", 200 * Duration.perMilli⟩
  | _ => ⟨.ok "", 200 * Duration.perMilli⟩

/-- Two targets with one key. -/
def twoTargets : List Profile := [.ofKind "aws" .aws, .ofKind "gcp" .gcp]

/-- Three targets with keys of their own and a fourth with the key of the second. -/
def fourTargets : List Profile :=
  [{ Profile.ofKind "aws" .aws with statusCommand := ["aws-status"] },
    { Profile.ofKind "gcp" .gcp with statusCommand := ["gcp-status"] },
    { Profile.ofKind "k8s" .kubernetes with statusCommand := ["kubectl", "get", "pods"] },
    { Profile.ofKind "gcp-again" .gcp with statusCommand := ["gcp-status"] }]

/-- A client that is asked about one target in vain at first and then shows nothing, shows resources
of another twice and then fails, and takes too long for the rest. -/
def unevenClient : StatusClient := fun earlier p _ =>
  match p.name, earlier.countP (·.profile.name = p.name) with
  | "aws", 0 => ⟨.error (.query p.name "exit status: 1"), 5 * Duration.perSecond⟩
  | "aws", _ => ⟨.ok "", 200 * Duration.perMilli⟩
  | "gcp", 0 => ⟨.ok "cluster\nnode", 200 * Duration.perMilli⟩
  | "gcp", 1 => ⟨.ok "cluster", 200 * Duration.perMilli⟩
  | "gcp", _ => ⟨.error (.query p.name "exit status: 1"), 5 * Duration.perSecond⟩
  | _, _ => ⟨.ok "", .ofSecs 121⟩

/-- The first target is clean after a failure, the second is leaked though failures followed, and so
is the one with its key, and the third is undecided. -/
theorem check_reports_unevenClient :
    LeakCheckConfig.default.validate = .ok () ∧
      let c : LeakChecker := ⟨runningLines, .ofConfig .default, unevenClient⟩
      ((∀ before q after, (c.check fourTargets).queries = before ++ q :: after →
          Answered unevenClient LeakCheckConfig.default.queryTimeoutSecs before.reverse q) ∧
        List.Forall₂ (Reports runningLines.leaked (c.check fourTargets).queries) fourTargets
          (c.check fourTargets).report.targets ∧
        ((∀ t ∈ (c.check fourTargets).report.targets, t.verdict = .clean) ∨
          Duration.ofSecs LeakCheckConfig.default.maxWaitSecs ≤ (c.check fourTargets).elapsed)) ∧
      (c.check fourTargets).report.targets =
        [⟨"aws", "", .clean, 2⟩, ⟨"gcp", "", .leaked [⟨"cluster", "UP"⟩], 5⟩,
          ⟨"k8s", "", .inconclusive "status query for profile 'k8s' timed out after 120s", 5⟩,
          ⟨"gcp-again", "", .leaked [⟨"cluster", "UP"⟩], 5⟩] :=
  ⟨LeakCheckConfig.validate_default,
    check_reports LeakCheckConfig.validate_default runningLines unevenClient fourTargets,
    by decide +kernel⟩

end LeakChecker

end CiPlan
