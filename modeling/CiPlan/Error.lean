import CiPlan.Config.Error
import CiPlan.Run.Error

/-!
# Errors of every part

One type for the errors that a user of the library may meet, with the part they come from in front of
the message.
-/

namespace CiPlan

/-- An error of some part of the library. -/
inductive Failure where
  | config (reason : ConfigError)
  | selector (reason : SelectorError)
  | plan (reason : PlannerError)
  | leakCheck (reason : LeakCheckError)
  /-- A bucket cannot be carried out. -/
  | execution (reason : RunError)
  | io (reason : IoError)
  deriving DecidableEq, Repr

namespace Failure

/-- The error of a run under the part that it comes from. -/
def ofRun : RunError → Failure
  | .plan reason => plan reason
  | .leakCheck reason => leakCheck reason
  | reason => execution reason

def message : Failure → String
  | config reason => "config error: " ++ reason.message
  | selector reason => "selector error: " ++ reason.message
  | plan reason => "plan error: " ++ reason.summary
  | leakCheck reason => "leak check error: " ++ reason.message
  | execution reason => "execution error: " ++ reason.message
  | io reason => "io error: " ++ reason.message

end Failure

end CiPlan
