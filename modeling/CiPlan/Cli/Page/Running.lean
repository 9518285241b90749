import CiPlan.Cli.Page
import CiPlan.Run.Orchestrator

/-!
# Pages about runs and leak checks
-/

namespace CiPlan.Cli

open Page

/-- The label of a verdict. -/
def verdictLabel : LeakVerdict → String
  | .clean => "CLEAN"
  | .leaked _ => "LEAKED"
  | .inconclusive _ => "INCONCLUSIVE"

/-- The lines of a target. -/
def targetLines (t : TargetReport) : List String :=
  ("  " ++ padEnd 18 t.profile ++ " " ++ padEnd 28 t.target ++ " " ++ verdictLabel t.verdict ++
      " (" ++ toString t.queries ++ " queries)") ::
    match t.verdict with
    | .clean => []
    | .leaked resources => resources.map fun r => "    - " ++ r.name ++ " [" ++ r.status ++ "]"
    | .inconclusive reason => ["    " ++ reason]

/-- The lines of a leak check that took some time. -/
def leakLines (style : Style) (report : LeakReport) (elapsed : Duration) : List String :=
  ("Leak check (" ++ toString report.targets.length ++ " targets, " ++ style.checkTime elapsed ++
      ")") :: report.targets.flatMap targetLines

/-- A leak check. -/
def Page.ofLeakCheck (style : Style) (course : LeakChecker.Course) : Page where
  text := lines (leakLines style course.report course.elapsed)
  json := .obj course.report.fields

/-- The label of an outcome. -/
def outcomeLabel : BucketOutcome → String
  | .succeeded => "PASS"
  | .failed .. => "FAIL"
  | .timedOut _ => "TIMEOUT"
  | .cancelled => "CANCELLED"

/-- The lines of the result of a bucket. -/
def resultLines (style : Style) (b : BucketResult) : List String :=
  ("  " ++ padEnd 10 (outcomeLabel b.outcome) ++ " " ++ padEnd 32 b.bucket ++ " " ++
      padStart 5 (toString b.tests) ++ " tests" ++ style.bucketTime b.duration) ::
    if b.outcome.isSuccess then [] else ["             " ++ b.outcome.display]

/-- The lines about the leak check of a run. -/
def statusLines (style : Style) (elapsed : Duration) : LeakCheckStatus → List String
  | .notScheduled => ["Leak check: not scheduled"]
  | .disabled => ["Leak check: disabled"]
  | .completed report => leakLines style report elapsed

/-- A run. -/
def Page.ofRun (style : Style) (course : RunCourse) : Page :=
  let r := course.report
  { text := lines (
      ["Run " ++ style.runId ++ " (" ++ r.trigger.name ++ ", level " ++ r.level.name ++ ")", ""] ++
      r.buckets.flatMap (resultLines style) ++ [""] ++
      statusLines style (course.elapsed - course.bucketPhase) r.leakCheck ++
      ["", toString (r.count "succeeded") ++ " succeeded, " ++ toString (r.count "failed") ++
        " failed, " ++ toString (r.count "timed_out") ++ " timed out, " ++
        toString (r.count "cancelled") ++ " cancelled"])
    json := .obj (("run_id", .str style.runId) :: r.fields) }

end CiPlan.Cli
