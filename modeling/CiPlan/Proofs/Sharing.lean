import CiPlan.Proofs.Leaders

/-!
# Sharing listings

A leak check hands the listing that it had for a key in a round on to the other targets with that key.
`askAnew` asks about each of them instead, and `checkBy` is the check with a choice of how one target
is asked about: with `ask` it is `check` (`checkBy_ask`), with `askAnew` it shares nothing.

When the status commands answer at once, and what they list depends on the key and the round only
(`StatusClient.AnswersByRound`), both ways show the same to every target.  `Answers` says what asking
about one target then comes to; the two ways of asking are compared through it only.  Failures name the
profile that was asked about, so the texts of failures are left out of the comparison (`unworded`).

Main result: `check_sharing`.
-/

namespace CiPlan

/-! ## Results without the texts of failures -/

/-- What a query shows, without the text of a failure. -/
def Finding.unworded (f : Finding) : Finding :=
  f.mapError fun _ => ""

/-- A verdict without its reason when it could not be decided. -/
def LeakVerdict.unworded : LeakVerdict → LeakVerdict
  | .inconclusive _ => .inconclusive ""
  | verdict => verdict

def TargetReport.unworded (t : TargetReport) : TargetReport :=
  { t with verdict := t.verdict.unworded }

def LeakReport.unworded (report : LeakReport) : LeakReport :=
  ⟨report.targets.map TargetReport.unworded⟩

namespace Pending

/-- A target that has forgotten the text of its last failure. -/
def unworded (p : Pending) : Pending :=
  { p with lastError := p.lastError.map fun _ => "" }

@[simp]
theorem isDone_unworded (p : Pending) : p.unworded.isDone = p.isDone :=
  rfl

@[simp]
theorem profile_unworded (p : Pending) : p.unworded.profile = p.profile :=
  rfl

theorem unworded_hear (p : Pending) (f : Finding) :
    (p.hear f).unworded = p.unworded.hear f.unworded := by
  cases f with
  | error reason => rfl
  | ok resources => cases resources <;> rfl

/-- The text of the last failure is in the text of the verdict only. -/
theorem unworded_report (p : Pending) : p.report.unworded = p.unworded.report.unworded := by
  obtain ⟨profile, queries, lastLeaked, lastError, verdict⟩ := p
  cases verdict with
  | some verdict => rfl
  | none =>
      cases lastLeaked with
      | some resources => rfl
      | none => cases lastError <;> rfl

end Pending

theorem LeakReport.unworded_map_report (pending : List Pending) :
    (LeakReport.mk (pending.map Pending.report)).unworded =
      ⟨(pending.map Pending.unworded).map fun p => p.report.unworded⟩ := by
  rw [LeakReport.unworded, List.map_map, List.map_map]
  exact congrArg LeakReport.mk (List.map_congr_left fun p _ => p.unworded_report)

@[simp]
theorem Finding.isOk_unworded (f : Finding) : f.unworded.isOk = f.isOk := by
  cases f <;> rfl

/-! ## Clients that answer by key and round -/

/-- The round of a query at a time after earlier queries, latest first: a pause lies between the last
query of a round and the first one of the next. -/
def roundAt (earlier : List Query) (now : Duration) : Nat :=
  match earlier with
  | [] => 1
  | q :: _ => if q.finish < now then q.round + 1 else q.round

/-- A client answers at once, with the listing of the key and the round, or it fails in some way. -/
structure StatusClient.AnswersByRound (client : StatusClient)
    (listing : Nat → QueryKey → Option String) : Prop where
  immediate : ∀ earlier p now, (client earlier p now).delay = 0
  answer : ∀ earlier p now,
    (client earlier p now).answer.toOption = listing (roundAt earlier now) (.of p)

/-- The client that answers at once with some listings; where there is none the query fails. -/
def StatusClient.ofListings (listing : Nat → QueryKey → Option String) : StatusClient :=
  fun earlier p now =>
    ⟨match listing (roundAt earlier now) (.of p) with
      | some text => .ok text
      | none => .error (.query p.name "exit status: 1"), 0⟩

theorem StatusClient.answersByRound_ofListings (listing : Nat → QueryKey → Option String) :
    (ofListings listing).AnswersByRound listing := by
  refine ⟨fun _ _ _ => rfl, fun earlier p now => ?_⟩
  rw [ofListings]
  cases listing (roundAt earlier now) (.of p) <;> rfl

namespace LeakChecker

/-! ## Checks that ask in another way -/

section Definitions

variable (c : LeakChecker)

/-- Asks about one target, whatever was found out in this round. -/
def askAnew (r : Round) (p : Profile) : Round × Finding :=
  let q := c.query r p
  ({ r with
      now := q.finish
      queries := q :: r.queries
      failed := r.failed || !(c.finding q).isOk }, c.finding q)

variable (ask : Round → Profile → Round × Finding)

/-- Asks about the targets that are not done, with another way of asking about one. -/
def askAllBy (r : Round) : List Pending → Round × List Pending
  | [] => (r, [])
  | p :: rest =>
    if p.isDone then
      let (r, rest) := askAllBy r rest
      (r, p :: rest)
    else
      let (r, finding) := ask r p.profile
      let (r, rest) := askAllBy r rest
      (r, p.hear finding :: rest)

/-- The rounds of a check with another way of asking. -/
def roundsBy (fuel number : Nat) (now interval : Duration) (queries : List Query)
    (pending : List Pending) : Round × List Pending :=
  let (r, pending) := askAllBy ask ⟨number, now, queries, [], false⟩ pending
  if c.isLast r pending then (r, pending)
  else match fuel with
    | 0 => (r, pending)
    | fuel + 1 =>
      roundsBy fuel (number + 1) (r.now + c.pause r interval) (c.policy.nextInterval interval)
        r.queries pending

/-- A check with another way of asking. -/
def checkBy (targets : List Profile) : Course :=
  let (r, pending) := c.roundsBy ask (c.policy.maxWait + 1) 1 (c.firstStart targets)
    c.policy.pollInterval [] (targets.map Pending.start)
  ⟨⟨pending.map Pending.report⟩, r.queries.reverse, r.now⟩

end Definitions

section Shared

variable (c : LeakChecker)

theorem askAllBy_ask (pending : List Pending) :
    ∀ r : Round, askAllBy c.ask r pending = c.askAll r pending := by
  induction pending with
  | nil =>
      intro r
      rfl
  | cons p pending ih =>
      intro r
      rw [askAllBy, askAll]
      simp only [ih]

theorem roundsBy_ask (fuel : Nat) : ∀ number now interval queries pending,
    c.roundsBy c.ask fuel number now interval queries pending =
      c.rounds fuel number now interval queries pending := by
  induction fuel with
  | zero =>
      intro number now interval queries pending
      rw [roundsBy, rounds, askAllBy_ask]
      rfl
  | succ fuel ih =>
      intro number now interval queries pending
      rw [roundsBy, rounds, askAllBy_ask]
      simp only [ih]
      rfl

/-- The check is the one that asks unless the listing was had. -/
theorem checkBy_ask (targets : List Profile) : c.checkBy c.ask targets = c.check targets := by
  rw [checkBy, roundsBy_ask]
  rfl

/-- A round that shares nothing asks about each target that waits. -/
theorem queries_askAllBy_askAnew (pending : List Pending) : ∀ r : Round,
    (askAllBy c.askAnew r pending).1.queries.reverse.map (·.profile) =
      r.queries.reverse.map (·.profile) ++ waiting pending := by
  induction pending with
  | nil =>
      intro r
      exact (List.append_nil _).symm
  | cons p pending ih =>
      intro r
      cases hdone : p.isDone with
      | true =>
          rw [askAllBy, if_pos hdone, waiting_cons_of_isDone hdone]
          exact ih r
      | false =>
          rw [askAllBy, if_neg (by simp [hdone]), waiting_cons_of_not_isDone hdone]
          refine (ih _).trans ?_
          simp [askAnew]

end Shared

/-! ## What asking comes to -/

/-- What a listing of a key in a round shows. -/
def shown (c : LeakChecker) (listing : Nat → QueryKey → Option String) (number : Nat)
    (key : QueryKey) : Finding :=
  match listing number key with
  | some text => .ok (c.parser.leaked text)
  | none => .error ""

/-- The latest query is one of this round, and nothing happened since. -/
def HasAsked (r : Round) : Prop :=
  ∃ q earlier, r.queries = q :: earlier ∧ q.round = r.number ∧ q.finish = r.now

/-- What a round has found out is what the listings of the round show. -/
structure IsTrue (c : LeakChecker) (listing : Nat → QueryKey → Option String) (r : Round) : Prop where
  round : roundAt r.queries r.now = r.number
  findings : ∀ key f, r.findings.lookup key = some f → f.unworded = c.shown listing r.number key
  asked : r.findings ≠ [] → HasAsked r

/-- Asking about a target shows what the listing of its key shows, and takes no time. -/
structure Answers (c : LeakChecker) (listing : Nat → QueryKey → Option String) (r : Round)
    (p : Profile) (out : Round × Finding) : Prop where
  isTrue : c.IsTrue listing out.1
  asked : HasAsked out.1
  now : out.1.now = r.now
  number : out.1.number = r.number
  failed : out.1.failed = (r.failed || !out.2.isOk)
  shown : out.2.unworded = c.shown listing r.number (.of p)

theorem HasAsked.roundAt {r : Round} (h : HasAsked r) : roundAt r.queries r.now = r.number := by
  obtain ⟨q, earlier, hqueries, hround, hfinish⟩ := h
  rw [hqueries, CiPlan.roundAt, if_neg (by rw [hfinish]; exact Nat.lt_irrefl _), hround]

/-- After a pause there is another round. -/
theorem HasAsked.roundAt_later {r : Round} (h : HasAsked r) {later : Duration}
    (hlater : r.now < later) : CiPlan.roundAt r.queries later = r.number + 1 := by
  obtain ⟨q, earlier, hqueries, hround, hfinish⟩ := h
  rw [hqueries, CiPlan.roundAt, if_pos (by rw [hfinish]; exact hlater), hround]

section Asking

variable {c : LeakChecker} {listing : Nat → QueryKey → Option String}

theorem isTrue_start {number : Nat} {now : Duration} {queries : List Query}
    (h : roundAt queries now = number) : c.IsTrue listing ⟨number, now, queries, [], false⟩ :=
  ⟨h, by simp, fun hne => absurd rfl hne⟩

variable (hclient : c.client.AnswersByRound listing)
include hclient

/-- A query ends at once, with the listing of its key and round. -/
theorem query_of_answersByRound (r : Round) (p : Profile) (h : roundAt r.queries r.now = r.number) :
    (c.query r p).finish = r.now ∧
      (c.finding (c.query r p)).unworded = c.shown listing r.number (.of p) := by
  have hdelay := hclient.immediate r.queries p r.now
  have hanswer := hclient.answer r.queries p r.now
  rw [h] at hanswer
  have hquery : c.query r p =
      ⟨r.number, p, r.now, r.now + 0, (c.client r.queries p r.now).answer⟩ := by
    rw [query, hdelay]
    exact if_pos (Nat.zero_le _)
  rw [hquery]
  refine ⟨Nat.add_zero _, ?_⟩
  rw [LeakChecker.shown, ← hanswer, finding]
  cases (c.client r.queries p r.now).answer <;> rfl

/-- A target whose listing was had hears the same as one that is asked about. -/
theorem answers_ask {r : Round} (h : c.IsTrue listing r) (p : Profile) :
    c.Answers listing r p (c.ask r p) := by
  rw [ask]
  cases hlookup : r.findings.lookup (.of p) with
  | some f =>
      have hne : r.findings ≠ [] := by
        intro hnil
        rw [hnil] at hlookup
        cases hlookup
      exact ⟨⟨h.round, h.findings, h.asked⟩, h.asked hne, rfl, rfl, rfl, h.findings _ f hlookup⟩
  | none =>
      obtain ⟨hfinish, hshown⟩ := query_of_answersByRound hclient r p h.round
      have hasked : HasAsked
          { r with
            now := (c.query r p).finish
            queries := c.query r p :: r.queries
            findings := (.of p, c.finding (c.query r p)) :: r.findings
            failed := r.failed || !(c.finding (c.query r p)).isOk } :=
        ⟨c.query r p, r.queries, rfl, c.round_query r p, rfl⟩
      refine ⟨⟨hasked.roundAt, ?_, fun _ => hasked⟩, hasked, hfinish, rfl, rfl, hshown⟩
      intro key f hf
      rw [List.lookup_cons] at hf
      by_cases hkey : key = .of p
      · rw [hkey] at hf ⊢
        simp only [BEq.rfl] at hf
        cases hf
        exact hshown
      · have hne : (key == QueryKey.of p) = false := by simpa using hkey
        rw [hne] at hf
        exact h.findings key f hf

theorem answers_askAnew {r : Round} (h : c.IsTrue listing r) (p : Profile) :
    c.Answers listing r p (c.askAnew r p) := by
  obtain ⟨hfinish, hshown⟩ := query_of_answersByRound hclient r p h.round
  have hasked : HasAsked (c.askAnew r p).1 :=
    ⟨c.query r p, r.queries, rfl, c.round_query r p, rfl⟩
  exact ⟨⟨hasked.roundAt, h.findings, fun _ => hasked⟩, hasked, hfinish, rfl, rfl, hshown⟩

end Asking

/-! ## Rounds -/

section Rounds

variable {c : LeakChecker} {listing : Nat → QueryKey → Option String}

/-- What a target makes of the listings of a round. -/
def hearShown (c : LeakChecker) (listing : Nat → QueryKey → Option String) (number : Nat)
    (p : Pending) : Pending :=
  if p.isDone then p else p.hear (c.shown listing number (.of p.profile))

/-- A target that is not done hears of a failure in a round. -/
def failsFor (c : LeakChecker) (listing : Nat → QueryKey → Option String) (number : Nat)
    (p : Pending) : Bool :=
  !p.isDone && !(c.shown listing number (.of p.profile)).isOk

/-- What a round comes to, apart from the texts of failures: it depends on the listings and the
targets before it. -/
structure AnswersAll (c : LeakChecker) (listing : Nat → QueryKey → Option String) (r : Round)
    (pending : List Pending) (out : Round × List Pending) : Prop where
  now : out.1.now = r.now
  number : out.1.number = r.number
  failed : out.1.failed =
    (r.failed || (pending.map Pending.unworded).any (c.failsFor listing r.number))
  targets : out.2.map Pending.unworded =
    (pending.map Pending.unworded).map (c.hearShown listing r.number)
  asked : HasAsked r ∨ (∃ p ∈ pending, p.isDone = false) → HasAsked out.1

theorem answersAll_askAllBy {ask : Round → Profile → Round × Finding}
    (hask : ∀ r, c.IsTrue listing r → ∀ p, c.Answers listing r p (ask r p))
    (pending : List Pending) :
    ∀ r, c.IsTrue listing r → c.AnswersAll listing r pending (askAllBy ask r pending) := by
  induction pending with
  | nil =>
      intro r _
      exact ⟨rfl, rfl, by simp [askAllBy], rfl, fun h => h.elim id (by simp)⟩
  | cons p pending ih =>
      intro r h
      cases hdone : p.isDone with
      | true =>
          have hrest := ih r h
          rw [askAllBy, if_pos hdone]
          refine ⟨hrest.now, hrest.number, ?_, ?_, ?_⟩
          · simpa [failsFor, hdone] using hrest.failed
          · simpa [hearShown, hdone] using hrest.targets
          · simpa [hdone] using hrest.asked
      | false =>
          have hone := hask r h p.profile
          have hrest := ih _ hone.isTrue
          rw [askAllBy, if_neg (by simp [hdone])]
          refine ⟨hrest.now.trans hone.now, hrest.number.trans hone.number, ?_, ?_,
            fun _ => hrest.asked (.inl hone.asked)⟩
          · have hok : (ask r p.profile).2.isOk =
                (c.shown listing r.number (.of p.profile)).isOk := by
              rw [← hone.shown, Finding.isOk_unworded]
            have hfailed := hrest.failed
            rw [hone.failed, hone.number, hok, Bool.or_assoc] at hfailed
            simpa [failsFor, hdone] using hfailed
          · have htargets := hrest.targets
            rw [hone.number] at htargets
            simp only [List.map_cons, htargets, Pending.unworded_hear, hone.shown, hearShown,
              Pending.isDone_unworded, hdone, Pending.profile_unworded]
            rfl

theorem all_isDone_unworded (pending : List Pending) :
    (pending.map Pending.unworded).all (·.isDone) = pending.all (·.isDone) := by
  rw [List.all_map]
  rfl

/-- Targets that are done stay as they are. -/
theorem AnswersAll.all_isDone {r : Round} {pending : List Pending} {out : Round × List Pending}
    (h : c.AnswersAll listing r pending out) (hdone : pending.all (·.isDone) = true) :
    out.2.all (·.isDone) = true := by
  rw [← all_isDone_unworded, h.targets, List.all_map, List.all_map]
  rw [List.all_eq_true] at hdone ⊢
  intro p hp
  show (c.hearShown listing r.number p.unworded).isDone = true
  rw [hearShown, Pending.isDone_unworded, if_pos (hdone p hp)]
  exact hdone p hp

end Rounds

/-! ## The whole check -/

/-- Two rounds have come to the same, apart from the texts of failures. -/
structure Agree (out out' : Round × List Pending) : Prop where
  now : out.1.now = out'.1.now
  failed : out.1.failed = out'.1.failed
  targets : out.2.map Pending.unworded = out'.2.map Pending.unworded

section Loop

variable {c : LeakChecker} {listing : Nat → QueryKey → Option String} {out out' : Round × List Pending}

theorem Agree.isLast_eq (h : Agree out out') : c.isLast out.1 out.2 = c.isLast out'.1 out'.2 := by
  rw [isLast, isLast, h.now, ← all_isDone_unworded, h.targets, all_isDone_unworded]

theorem Agree.pause_eq (h : Agree out out') (interval : Duration) :
    c.pause out.1 interval = c.pause out'.1 interval := by
  rw [pause, pause, h.now, h.failed]

theorem AnswersAll.agree {r r' : Round} {pending pending' : List Pending}
    (h : c.AnswersAll listing r pending out) (h' : c.AnswersAll listing r' pending' out')
    (hbefore : Agree (r, pending) (r', pending')) (hnumber : r.number = r'.number) :
    Agree out out' := by
  refine ⟨?_, ?_, ?_⟩
  · rw [h.now, h'.now]
    exact hbefore.now
  · rw [h.failed, h'.failed, hbefore.targets, hnumber]
    exact congrArg (· || _) hbefore.failed
  · rw [h.targets, h'.targets, hbefore.targets, hnumber]

/-- A round that is not the last has asked, so the next one has the next number. -/
theorem AnswersAll.roundAt_next {r : Round} {pending : List Pending} {interval : Duration}
    (h : c.AnswersAll listing r pending out) (hmax : 0 < c.policy.maxPollInterval)
    (hinterval : 0 < interval) (hlast : ¬ c.isLast out.1 out.2 = true) :
    roundAt out.1.queries (out.1.now + c.pause out.1 interval) = r.number + 1 := by
  have hwaits : ∃ p ∈ pending, p.isDone = false := by
    by_contra hnone
    refine hlast ?_
    rw [isLast, h.all_isDone (List.all_eq_true.mpr fun p hp => ?_), Bool.true_or]
    by_contra hp'
    exact hnone ⟨p, hp, by simpa using hp'⟩
  have hpause := pause_pos hmax hinterval (lt_maxWait_of_not_isLast hlast)
  rw [(h.asked (.inr hwaits)).roundAt_later (Nat.lt_add_of_pos_right hpause), h.number]

section Unfold

variable (ask : Round → Profile → Round × Finding) (number : Nat) (now interval : Duration)
  (queries : List Query) (pending : List Pending)

theorem roundsBy_zero : c.roundsBy ask 0 number now interval queries pending =
    askAllBy ask ⟨number, now, queries, [], false⟩ pending := by
  rw [roundsBy]
  exact ite_self _

theorem roundsBy_of_isLast (fuel : Nat)
    (hask : askAllBy ask ⟨number, now, queries, [], false⟩ pending = out)
    (hlast : c.isLast out.1 out.2 = true) :
    c.roundsBy ask fuel number now interval queries pending = out := by
  rw [roundsBy, hask]
  exact if_pos hlast

theorem roundsBy_succ (fuel : Nat)
    (hask : askAllBy ask ⟨number, now, queries, [], false⟩ pending = out)
    (hlast : ¬ c.isLast out.1 out.2 = true) :
    c.roundsBy ask (fuel + 1) number now interval queries pending =
      c.roundsBy ask fuel (number + 1) (out.1.now + c.pause out.1 interval)
        (c.policy.nextInterval interval) out.1.queries out.2 := by
  rw [roundsBy, hask]
  exact if_neg hlast

theorem checkBy_eq (targets : List Profile) :
    let out := c.roundsBy ask (c.policy.maxWait + 1) 1 (c.firstStart targets)
      c.policy.pollInterval [] (targets.map Pending.start)
    c.checkBy ask targets = ⟨⟨out.2.map Pending.report⟩, out.1.queries.reverse, out.1.now⟩ :=
  rfl

end Unfold

variable {ask ask' : Round → Profile → Round × Finding}
  (hask : ∀ r, c.IsTrue listing r → ∀ p, c.Answers listing r p (ask r p))
  (hask' : ∀ r, c.IsTrue listing r → ∀ p, c.Answers listing r p (ask' r p))
include hask hask'

/-- Two ways of asking that show the listings lead to the same end at the same time. -/
theorem agree_roundsBy (hmax : 0 < c.policy.maxPollInterval) (fuel : Nat) :
    ∀ number now interval queries queries' pending pending', 0 < interval →
      roundAt queries now = number → roundAt queries' now = number →
        pending.map Pending.unworded = pending'.map Pending.unworded →
          Agree (c.roundsBy ask fuel number now interval queries pending)
            (c.roundsBy ask' fuel number now interval queries' pending') := by
  -- The queries may differ.  The listings are the same because both lead to the same round.
  induction fuel with
  | zero =>
      intro number now interval queries queries' pending pending' _ hround hround' htargets
      rw [roundsBy_zero, roundsBy_zero]
      exact (answersAll_askAllBy hask pending _ (isTrue_start hround)).agree
        (answersAll_askAllBy hask' pending' _ (isTrue_start hround')) ⟨rfl, rfl, htargets⟩ rfl
  | succ fuel ih =>
      intro number now interval queries queries' pending pending' hinterval hround hround' htargets
      have h := answersAll_askAllBy hask pending _ (isTrue_start hround)
      have h' := answersAll_askAllBy hask' pending' _ (isTrue_start hround')
      have hagree := h.agree h' ⟨rfl, rfl, htargets⟩ rfl
      by_cases hlast : c.isLast (askAllBy ask ⟨number, now, queries, [], false⟩ pending).1
          (askAllBy ask ⟨number, now, queries, [], false⟩ pending).2 = true
      · rw [roundsBy_of_isLast ask _ _ _ _ _ _ rfl hlast,
          roundsBy_of_isLast ask' _ _ _ _ _ _ rfl (hagree.isLast_eq ▸ hlast)]
        exact hagree
      · have hlast' := hlast
        rw [hagree.isLast_eq] at hlast'
        have hnext := h.roundAt_next hmax hinterval hlast
        have hnext' := h'.roundAt_next hmax hinterval hlast'
        rw [← hagree.now, ← hagree.pause_eq] at hnext'
        rw [roundsBy_succ ask _ _ _ _ _ _ rfl hlast, roundsBy_succ ask' _ _ _ _ _ _ rfl hlast',
          ← hagree.now, ← hagree.pause_eq]
        exact ih _ _ _ _ _ _ _ (c.policy.nextInterval_pos hmax hinterval) hnext hnext'
          hagree.targets

/-- Two checks whose ways of asking show the listings have the same results at the same time. -/
theorem checkBy_unworded_eq (hvalid : c.policy.IsValid) (targets : List Profile) :
    (c.checkBy ask targets).report.unworded = (c.checkBy ask' targets).report.unworded ∧
      (c.checkBy ask targets).elapsed = (c.checkBy ask' targets).elapsed := by
  have hmax : 0 < c.policy.maxPollInterval :=
    Nat.lt_of_lt_of_le hvalid.interval_pos hvalid.interval_le
  have h := agree_roundsBy hask hask' hmax (c.policy.maxWait + 1) 1 (c.firstStart targets)
    c.policy.pollInterval [] [] _ _ hvalid.interval_pos rfl rfl
    (rfl : (targets.map Pending.start).map Pending.unworded = _)
  rw [checkBy_eq, checkBy_eq]
  refine ⟨?_, h.now⟩
  rw [LeakReport.unworded_map_report, LeakReport.unworded_map_report, h.targets]

end Loop

/-! ## Sharing is invisible -/

/-- The verdict of a target depends on what it hears, not on what it is. -/
theorem conclusion_start_hearAll_eq (p q : Profile) (answers : List Finding) :
    ((Pending.start p).hearAll answers).conclusion =
      ((Pending.start q).hearAll answers).conclusion := by
  simp only [Pending.conclusion, Pending.verdict_start_hearAll, Pending.lastLeaked_start_hearAll,
    Pending.lastError_start_hearAll]

/-- The course of a check of some targets treats targets with one key alike, and asks for the listings
of a key only once in a round. -/
structure Shares (c : LeakChecker) (targets : List Profile) (course : Course) : Prop where
  /-- There is a result for each target, in order. -/
  inOrder : course.report.targets.map (fun t => (t.profile, t.target)) =
    targets.map fun p => (p.name, p.target)
  /-- Targets with one key have one verdict and one number of queries. -/
  alike : ∀ x ∈ targets.zip course.report.targets, ∀ y ∈ targets.zip course.report.targets,
    QueryKey.of x.1 = .of y.1 → x.2.verdict = y.2.verdict ∧ x.2.queries = y.2.queries
  /-- In each round the client is asked once for each key of the targets that are due, about the first
  of them. -/
  calls : ∃ last, 1 ≤ last ∧ (∀ q ∈ course.queries, 1 ≤ q.round ∧ q.round ≤ last) ∧
    ∀ n, 1 ≤ n → n ≤ last →
      (course.queries.filter fun q => q.round = n).map (·.profile) =
        leaders (c.dueIn targets course.queries n)

theorem shares_check {c : LeakChecker} (hvalid : c.policy.IsValid) (targets : List Profile) :
    c.Shares targets (c.check targets) := by
  obtain ⟨last, queries, -, -, -, -, htargets, -⟩ := check_spec hvalid targets
  refine ⟨?inOrder, ?alike, check_calls hvalid targets⟩
  case inOrder =>
    rw [htargets, List.map_map]
    refine List.map_congr_left fun p _ => ?_
    simp [Pending.report, Pending.start]
  case alike =>
    rw [htargets, ← List.map_prod_left_eq_zip]
    intro x hx y hy hkey
    obtain ⟨p, -, rfl⟩ := List.mem_map.mp hx
    obtain ⟨q, -, rfl⟩ := List.mem_map.mp hy
    replace hkey : QueryKey.of p = .of q := hkey
    refine ⟨?_, ?_⟩
    · show ((Pending.start p).hearAll _).conclusion = ((Pending.start q).hearAll _).conclusion
      rw [hkey]
      exact conclusion_start_hearAll_eq p q _
    · show ((Pending.start p).hearAll _).queries = ((Pending.start q).hearAll _).queries
      rw [hkey, Pending.queries_hearAll, Pending.queries_hearAll]
      rfl

/-- Sharing listings cannot be seen in the results.  Whatever the status commands do, targets with one
key are treated alike; and when what they list depends on key and round only, the results are those of a
check that in each round asks about every target that is not done. -/
theorem check_sharing [Formats] {config : LeakCheckConfig} (hvalid : config.validate = .ok ())
    (parser : StatusParser) (client : StatusClient) (targets : List Profile) :
    let c : LeakChecker := ⟨parser, .ofConfig config, client⟩
    c.Shares targets (c.check targets) ∧
      (∀ r pending, (askAllBy c.askAnew r pending).1.queries.reverse.map (·.profile) =
        r.queries.reverse.map (·.profile) ++ waiting pending) ∧
      ∀ listing, client.AnswersByRound listing →
        (c.check targets).report.unworded = (c.checkBy c.askAnew targets).report.unworded ∧
          (c.check targets).elapsed = (c.checkBy c.askAnew targets).elapsed := by
  intro c
  have hpolicy : c.policy.IsValid := LeakCheckConfig.isValid_of_validate hvalid
  refine ⟨shares_check hpolicy targets, fun r pending => queries_askAllBy_askAnew c pending r,
    fun listing hclient => ?_⟩
  rw [← c.checkBy_ask targets]
  exact checkBy_unworded_eq (fun r h p => answers_ask hclient h p)
    (fun r h p => answers_askAnew hclient h p) hpolicy targets

/-- Where every query fails the results differ in the texts of the failures, and in nothing else. -/
theorem check_sharing_failing :
    LeakCheckConfig.default.validate = .ok () ∧
      let c : LeakChecker := ⟨runningLines, .ofConfig .default, .ofListings fun _ _ => none⟩
      (c.Shares twoTargets (c.check twoTargets) ∧
        (c.check twoTargets).report.unworded =
          (c.checkBy c.askAnew twoTargets).report.unworded ∧
        (c.check twoTargets).elapsed = (c.checkBy c.askAnew twoTargets).elapsed) ∧
      (c.check twoTargets).report ≠ (c.checkBy c.askAnew twoTargets).report :=
  have h := check_sharing LeakCheckConfig.validate_default runningLines
    (.ofListings fun _ _ => none) twoTargets
  ⟨LeakCheckConfig.validate_default,
    ⟨h.1, h.2.2 (fun _ _ => none) (StatusClient.answersByRound_ofListings _)⟩, by decide +kernel⟩

end LeakChecker

end CiPlan
