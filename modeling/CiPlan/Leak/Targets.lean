import CiPlan.Profile

/-!
# Choosing the targets of a leak check

A leak check of its own, outside a run, asks about the profiles that can have something left running,
or about those among them that are named.
-/

namespace CiPlan

/-- Why there is nothing to check. -/
inductive TargetError where
  | unknownProfile (name : String)
  | noTargets
  deriving DecidableEq, Repr

def TargetError.message : TargetError → String
  | .unknownProfile name => "unknown profile: " ++ name
  | .noTargets => "no leak check targets (need a cloud profile with a status_command)"

/-- The targets among some profiles: those with the given names, or all when no name is given. -/
def Profile.chooseTargets (profiles : List Profile) (names : List String) :
    Except TargetError (List Profile) :=
  match names.find? fun name => !profiles.any (·.name == name) with
  | some name => .error (.unknownProfile name)
  | none =>
    let targets := profiles.filter fun p =>
      (names.isEmpty || names.contains p.name) && p.isLeakCheckTarget
    if targets.isEmpty then .error .noTargets else .ok targets

end CiPlan
