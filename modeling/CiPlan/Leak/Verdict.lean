import CiPlan.Leak.Listing

/-!
# Verdicts of the leak check

What is known about each target in the end, and the verdict on all of them: a leak anywhere wins,
then anything that could not be decided.
-/

namespace CiPlan

/-- What is known about a target, or about all of them. -/
inductive LeakVerdict where
  /-- Nothing that belongs to the run is running. -/
  | clean
  /-- These resources were still running when the time was up. -/
  | leaked (resources : List Resource)
  /-- No query succeeded. -/
  | inconclusive (reason : String)
  deriving DecidableEq, Repr

namespace LeakVerdict

def isClean : LeakVerdict → Bool
  | clean => true
  | _ => false

def label : LeakVerdict → String
  | clean => "clean"
  | leaked _ => "leaked"
  | inconclusive _ => "inconclusive"

def toJson (verdict : LeakVerdict) : Json :=
  .obj (("verdict", .str verdict.label) :: match verdict with
    | clean => []
    | leaked resources => [("detail", .arr (resources.map Resource.toJson))]
    | inconclusive reason => [("detail", .str reason)])

end LeakVerdict

/-- The result for one target. -/
structure TargetReport where
  profile : String
  target : String
  verdict : LeakVerdict
  /-- How often the target was asked about. -/
  queries : Nat
  deriving DecidableEq, Repr

def TargetReport.toJson (t : TargetReport) : Json :=
  .obj [("profile", .str t.profile), ("target", .str t.target), ("verdict", t.verdict.toJson),
    ("queries", .nat t.queries)]

/-- The result of a leak check. -/
structure LeakReport where
  targets : List TargetReport
  deriving DecidableEq, Repr

namespace LeakReport

/-- Keeps the first resource of each name that is not in `seen`. -/
def firstOfName (seen : List String) : List Resource → List Resource
  | [] => []
  | r :: rest =>
    if seen.contains r.name then firstOfName seen rest
    else r :: firstOfName (r.name :: seen) rest

/-- The resources that are leaked at some target; one that several targets see counts once. -/
def leakedResources (report : LeakReport) : List Resource :=
  firstOfName [] (report.targets.flatMap fun t =>
    match t.verdict with
    | .leaked resources => resources
    | _ => [])

/-- The reasons of the targets that could not be decided. -/
def doubts (report : LeakReport) : List String :=
  report.targets.filterMap fun t =>
    match t.verdict with
    | .inconclusive reason => some (t.profile ++ ": " ++ reason)
    | _ => none

/-- The verdict on all targets. -/
def verdict (report : LeakReport) : LeakVerdict :=
  if !report.leakedResources.isEmpty then .leaked report.leakedResources
  else if !report.doubts.isEmpty then .inconclusive ("; ".intercalate report.doubts)
  else .clean

/-- Nothing is left anywhere. -/
def isClean (report : LeakReport) : Bool :=
  report.verdict.isClean

/-- How many resources are left. -/
def leakedCount (report : LeakReport) : Nat :=
  match report.verdict with
  | .leaked resources => resources.length
  | _ => 0

def fields (report : LeakReport) : List (String × Json) :=
  [("targets", .arr (report.targets.map TargetReport.toJson))]

end LeakReport

end CiPlan
