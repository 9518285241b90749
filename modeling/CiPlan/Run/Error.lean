import CiPlan.Leak.Error
import CiPlan.Plan.Error

/-!
# Errors of a run

Why a run or one of its buckets cannot be carried out.  Tests that fail are no error.
-/

namespace CiPlan

/-- Why a run or a bucket cannot be carried out. -/
inductive RunError where
  /-- There is no test command. -/
  | emptyCommand
  /-- The test command cannot be started. -/
  | spawn (bucket reason : String)
  /-- The end of the test command cannot be waited for. -/
  | wait (bucket reason : String)
  /-- There is no plan. -/
  | plan (reason : PlannerError)
  /-- The leak check cannot be set up. -/
  | leakCheck (reason : LeakCheckError)
  deriving DecidableEq, Repr

def RunError.message : RunError → String
  | .emptyCommand => "test command is empty"
  | .spawn bucket reason => "failed to spawn bucket '" ++ bucket ++ "': " ++ reason
  | .wait bucket reason => "failed to wait for bucket '" ++ bucket ++ "': " ++ reason
  | .plan reason => reason.message
  | .leakCheck reason => reason.message

end CiPlan
