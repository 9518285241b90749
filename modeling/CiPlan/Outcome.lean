import CiPlan.Json

/-!
# Bucket outcomes

How the run of a bucket ended.  In files an outcome is an object whose field `state` names the kind
of end and whose other fields give the details.
-/

namespace CiPlan

/-- How the run of a bucket ended. -/
inductive BucketOutcome where
  /-- Every test passed. -/
  | succeeded
  /-- Tests failed, or they could not be run.  There is no exit code when the process was killed or
  never ran. -/
  | failed (exitCode : Option Int32) (reason : String)
  /-- The time limit was exceeded. -/
  | timedOut (timeoutSecs : UInt64)
  | cancelled
  deriving DecidableEq, Repr

namespace BucketOutcome

def isSuccess : BucketOutcome → Bool
  | succeeded => true
  | _ => false

def label : BucketOutcome → String
  | succeeded => "succeeded"
  | failed .. => "failed"
  | timedOut _ => "timed_out"
  | cancelled => "cancelled"

/-- An outcome as it is displayed. -/
def display : BucketOutcome → String
  | succeeded => "succeeded"
  | failed (some code) reason => "failed (exit " ++ toString code.toInt ++ "): " ++ reason
  | failed none reason => "failed: " ++ reason
  | timedOut secs => "timed out after " ++ toString secs.toNat ++ "s"
  | cancelled => "cancelled"

/-- The fields of the details. -/
def details : BucketOutcome → List (String × Json)
  | succeeded | cancelled => []
  | failed exitCode reason =>
    [("exit_code", match exitCode with | some code => .int code.toInt | none => .null),
      ("reason", .str reason)]
  | timedOut secs => [("timeout_secs", .u64 secs)]

def toJson (outcome : BucketOutcome) : Json :=
  .obj (("state", .str outcome.label) :: outcome.details)

/-- Splits a value into its state and the details. -/
def split? : Json → Option (String × Json)
  | .obj fields =>
    match fields.filter (·.1 == "state") with
    | [(_, .str state)] => some (state, .obj (fields.filter (·.1 != "state")))
    | _ => none
  | .arr (.str state :: items) => some (state, .arr items)
  | _ => none

/-- Reads the written form; the details may also follow the state by position. -/
def ofJson? (j : Json) : Option BucketOutcome := do
  match ← split? j with
  | ("succeeded", details) => let _ ← details.fields? []; return succeeded
  | ("cancelled", details) => let _ ← details.fields? []; return cancelled
  | ("failed", details) =>
    let fields ← details.fields? ["exit_code", "reason"]
    let exitCode ← fields.withDefault "exit_code" none (Json.optional? Json.i32?)
    let reason ← fields.required "reason" Json.str?
    return failed exitCode reason
  | ("timed_out", details) =>
    let fields ← details.fields? ["timeout_secs"]
    return timedOut (← fields.required "timeout_secs" Json.u64?)
  | _ => none

end BucketOutcome

end CiPlan
