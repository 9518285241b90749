import CiPlan.Leak.Verdict
import CiPlan.Metric

/-!
# Polling until nothing is left

After a delay every target is asked about once in a round.  A target is done when its listing shows
nothing leaked.  The pause between rounds doubles up to a longest one, which also follows a round in
which a query failed.  Rounds end when every target is done or the time is up.

Targets with the same command and environment would see the same listing, so a round asks once for
all of them.

The check is a function of the behaviour of the status commands.  A `StatusClient` may answer
anything, after any delay, depending on all that was asked before.
-/

namespace CiPlan

/-- The times of a leak check. -/
structure PollPolicy where
  initialDelay : Duration
  /-- The pause after the first round. -/
  pollInterval : Duration
  /-- The longest pause. -/
  maxPollInterval : Duration
  /-- The time, from the start, after which no round starts. -/
  maxWait : Duration
  /-- The time limit of a query. -/
  queryTimeout : Duration
  deriving DecidableEq, Repr

namespace PollPolicy

/-- The times in some settings. -/
def ofConfig (c : LeakCheckConfig) : PollPolicy where
  initialDelay := .ofSecs c.initialDelaySecs
  pollInterval := .ofSecs c.pollIntervalSecs
  maxPollInterval := .ofSecs c.maxPollIntervalSecs
  maxWait := .ofSecs c.maxWaitSecs
  queryTimeout := .ofSecs c.queryTimeoutSecs

/-- The pause after one of a given length. -/
def nextInterval (p : PollPolicy) (interval : Duration) : Duration :=
  min interval.double p.maxPollInterval

end PollPolicy

/-- A query of a status command. -/
structure Query where
  /-- The round in which it is made; the first one is 1. -/
  round : Nat
  profile : Profile
  start : Duration
  finish : Duration
  /-- The listing, or why there is none. -/
  answer : Except LeakCheckError String

/-- An answer of a status command, and how long it takes. -/
structure Reply where
  answer : Except LeakCheckError String
  delay : Duration

/-- The behaviour of status commands: the reply to a query for a profile at a time, after earlier
queries, latest first. -/
abbrev StatusClient := List Query → Profile → Duration → Reply

/-- What makes the listings of two profiles the same. -/
structure QueryKey where
  command : List String
  env : Bindings
  secretEnv : List String
  deriving DecidableEq

def QueryKey.of (p : Profile) : QueryKey := ⟨p.statusCommand, p.env, p.secretEnv⟩

/-- What a query shows: the leaked resources of its listing, or why there is no listing. -/
abbrev Finding := Except String (List Resource)

/-- A target during the check. -/
structure Pending where
  profile : Profile
  /-- How often the target was asked about. -/
  queries : Nat
  /-- The leaked resources of the last listing that showed some. -/
  lastLeaked : Option (List Resource)
  /-- The last failure. -/
  lastError : Option String
  /-- What is known for good. -/
  verdict : Option LeakVerdict

namespace Pending

/-- A target that was not asked about. -/
def start (p : Profile) : Pending := ⟨p, 0, none, none, none⟩

def isDone (p : Pending) : Bool := p.verdict.isSome

/-- The target after one more query. -/
def hear (p : Pending) : Finding → Pending
  | .ok [] => { p with queries := p.queries + 1, verdict := some .clean }
  | .ok resources => { p with queries := p.queries + 1, lastLeaked := some resources }
  | .error reason => { p with queries := p.queries + 1, lastError := some reason }

/-- The verdict when no more is asked.  A leak that was seen outranks a failure. -/
def conclusion (p : Pending) : LeakVerdict :=
  match p.verdict, p.lastLeaked, p.lastError with
  | some verdict, _, _ => verdict
  | none, some resources, _ => .leaked resources
  | none, none, some reason => .inconclusive reason
  | none, none, none => .inconclusive "no query completed"

def report (p : Pending) : TargetReport :=
  ⟨p.profile.name, p.profile.target, p.conclusion, p.queries⟩

end Pending

/-- A check of the targets of a run. -/
structure LeakChecker where
  parser : StatusParser
  policy : PollPolicy
  client : StatusClient

/-- What is known in the middle of a round. -/
structure Round where
  /-- The number of the round; the first one is 1. -/
  number : Nat
  now : Duration
  /-- The queries so far, latest first. -/
  queries : List Query
  /-- What the queries of this round showed, latest first. -/
  findings : List (QueryKey × Finding)
  /-- A query that was used in this round failed. -/
  failed : Bool

namespace LeakChecker

/-- The checker with the patterns and times of some settings. -/
def ofConfig [Formats] (client : StatusClient) (c : LeakCheckConfig) :
    Except LeakCheckError LeakChecker := do
  return ⟨← StatusParser.ofConfig c, .ofConfig c, client⟩

/-- Queries for a profile; what takes longer than the time limit fails when it is reached. -/
def query (c : LeakChecker) (r : Round) (p : Profile) : Query :=
  let reply := c.client r.queries p r.now
  if reply.delay ≤ c.policy.queryTimeout then
    ⟨r.number, p, r.now, r.now + reply.delay, reply.answer⟩
  else
    ⟨r.number, p, r.now, r.now + c.policy.queryTimeout,
      .error (.timeout p.name (UInt64.ofNat (Duration.wholeSecs c.policy.queryTimeout)))⟩

/-- What a query shows. -/
def finding (c : LeakChecker) (q : Query) : Finding :=
  (q.answer.map c.parser.leaked).mapError LeakCheckError.message

/-- Asks about one target, unless its listing was had in this round. -/
def ask (c : LeakChecker) (r : Round) (p : Profile) : Round × Finding :=
  match r.findings.lookup (.of p) with
  | some finding => ({ r with failed := r.failed || !finding.isOk }, finding)
  | none =>
    let q := c.query r p
    ({ r with
        now := q.finish
        queries := q :: r.queries
        findings := (.of p, c.finding q) :: r.findings
        failed := r.failed || !(c.finding q).isOk }, c.finding q)

/-- Asks about the targets that are not done. -/
def askAll (c : LeakChecker) (r : Round) : List Pending → Round × List Pending
  | [] => (r, [])
  | p :: rest =>
    if p.isDone then
      let (r, rest) := c.askAll r rest
      (r, p :: rest)
    else
      let (r, finding) := c.ask r p.profile
      let (r, rest) := c.askAll r rest
      (r, p.hear finding :: rest)

/-- The rounds from the one with a number on, which starts at `now`; `interval` is the pause after it.
`fuel` bounds the rounds. -/
def rounds (c : LeakChecker) (fuel number : Nat) (now interval : Duration) (queries : List Query)
    (pending : List Pending) : Round × List Pending :=
  let (r, pending) := c.askAll ⟨number, now, queries, [], false⟩ pending
  if pending.all (·.isDone) || c.policy.maxWait ≤ r.now then (r, pending)
  else match fuel with
    | 0 => (r, pending)
    | fuel + 1 =>
      let pause := if r.failed then c.policy.maxPollInterval else interval
      c.rounds fuel (number + 1) (r.now + min pause (c.policy.maxWait - r.now))
        (c.policy.nextInterval interval) r.queries pending

/-- The course of a check: its result, the queries in order, and how long it took. -/
structure Course where
  report : LeakReport
  queries : List Query
  elapsed : Duration

/-- Checks some targets.  Pauses last at least a nanosecond, so there are no more rounds than
nanoseconds. -/
def check (c : LeakChecker) (targets : List Profile) : Course :=
  let start := if targets.isEmpty then 0 else min c.policy.initialDelay c.policy.maxWait
  let (r, pending) := c.rounds (c.policy.maxWait + 1) 1 start c.policy.pollInterval []
    (targets.map Pending.start)
  ⟨⟨pending.map Pending.report⟩, r.queries.reverse, r.now⟩

/-- The metrics of a check. -/
def Course.metrics (course : Course) : List Metric.Sample :=
  (course.queries.map fun q => Metric.increment .leakCheckQueriesTotal
    [("profile", q.profile.name), ("result", if q.answer.isOk then "ok" else "error")]) ++
    [Metric.record .leakCheckDuration course.elapsed,
      Metric.set .leakedResources course.report.leakedCount]

end LeakChecker

end CiPlan
