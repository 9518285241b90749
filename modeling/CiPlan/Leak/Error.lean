import CiPlan.Pattern.Error

/-!
# Errors of the leak check

Why a listing cannot be had or read.  A resource that was left running is no error.
-/

namespace CiPlan

/-- What is wrong with a pattern of the leak check. -/
inductive PatternFault where
  | invalid (reason : PatternError)
  /-- A group that is needed is missing. -/
  | missingGroup (group : String)
  deriving DecidableEq, Repr

def PatternFault.message : PatternFault → String
  | .invalid reason => reason.message
  | .missingGroup group => "missing named group '" ++ group ++ "'"

/-- Why a listing cannot be had or read. -/
inductive LeakCheckError where
  /-- The command cannot be started. -/
  | spawn (profile reason : String)
  /-- The command failed. -/
  | query (profile reason : String)
  /-- The command took too long. -/
  | timeout (profile : String) (secs : UInt64)
  | noStatusCommand (profile : String)
  | pattern (field : String) (fault : PatternFault)
  deriving DecidableEq, Repr

def LeakCheckError.message : LeakCheckError → String
  | .spawn profile reason =>
    "failed to spawn status command for profile '" ++ profile ++ "': " ++ reason
  | .query profile reason => "status query failed for profile '" ++ profile ++ "': " ++ reason
  | .timeout profile secs =>
    "status query for profile '" ++ profile ++ "' timed out after " ++ toString secs.toNat ++ "s"
  | .noStatusCommand profile => "profile '" ++ profile ++ "' has no status command"
  | .pattern field fault => "invalid pattern for '" ++ field ++ "': " ++ fault.message

end CiPlan
