import CiPlan.Time

/-!
# Metrics

The numbers that a run reports about itself, under their published names and labels.  A sample is
one report; an operation that measures something yields its samples in the order of reporting.
-/

namespace CiPlan

/-- How the samples of a metric add up. -/
inductive Metric.Kind where
  | counter
  | gauge
  | histogram
  deriving DecidableEq, Repr

def Metric.Kind.name : Metric.Kind → String
  | .counter => "counter"
  | .gauge => "gauge"
  | .histogram => "histogram"

/-- The metrics, in the order in which they are described. -/
inductive Metric where
  | plansTotal
  | planOrphans
  | planDuplicates
  | planEmptyBuckets
  | bucketsTotal
  | bucketDuration
  | leakCheckQueriesTotal
  | leakedResources
  | leakCheckDuration
  deriving DecidableEq, Repr

namespace Metric

def every : List Metric :=
  [plansTotal, planOrphans, planDuplicates, planEmptyBuckets, bucketsTotal, bucketDuration,
    leakCheckQueriesTotal, leakedResources, leakCheckDuration]

def kind : Metric → Kind
  | plansTotal | bucketsTotal | leakCheckQueriesTotal => .counter
  | planOrphans | planDuplicates | planEmptyBuckets | leakedResources => .gauge
  | bucketDuration | leakCheckDuration => .histogram

def name : Metric → String
  | plansTotal => "testgate_plans_total"
  | planOrphans => "testgate_plan_orphans"
  | planDuplicates => "testgate_plan_duplicates"
  | planEmptyBuckets => "testgate_plan_empty_buckets"
  | bucketsTotal => "testgate_buckets_total"
  | bucketDuration => "testgate_bucket_duration_seconds"
  | leakCheckQueriesTotal => "testgate_leak_check_queries_total"
  | leakedResources => "testgate_leaked_resources"
  | leakCheckDuration => "testgate_leak_check_duration_seconds"

def description : Metric → String
  | plansTotal => "Number of plans built"
  | planOrphans => "Tests selected by no active bucket"
  | planDuplicates => "Tests selected twice inside an exclusivity group"
  | planEmptyBuckets => "Active buckets selecting no test"
  | bucketsTotal => "Buckets that reached a terminal state"
  | bucketDuration => "Wall-clock duration of a bucket"
  | leakCheckQueriesTotal => "Infrastructure status queries issued"
  | leakedResources => "Attributable resources still running"
  | leakCheckDuration => "Time from leak check start to verdict"

/-- What one sample says. -/
inductive Value where
  /-- A count, or the amount that a counter grows by. -/
  | count (n : Nat)
  /-- A measured length of time. -/
  | time (d : Duration)
  deriving DecidableEq, Repr

/-- One report of a metric. -/
structure Sample where
  metric : Metric
  labels : List (String × String)
  value : Value
  deriving DecidableEq, Repr

/-- One more of what a counter counts. -/
def increment (metric : Metric) (labels : List (String × String)) : Sample :=
  ⟨metric, labels, .count 1⟩

/-- The present value of a gauge. -/
def set (metric : Metric) (n : Nat) : Sample :=
  ⟨metric, [], .count n⟩

/-- A length of time for a histogram. -/
def record (metric : Metric) (d : Duration) : Sample :=
  ⟨metric, [], .time d⟩

end Metric

end CiPlan
