import CiPlan.Config.Error
import CiPlan.Json

/-!
# Triggers, gates and levels

A run is set off by an event.  The event decides the gate, continuous for a push or a pull request
and nightly for a schedule or a start by hand; the gate decides the level, which in turn decides the
buckets that are active and whether cloud resources are provisioned.  Only a level that provisions
cloud resources has a leak check at its end.
-/

namespace CiPlan

/-- The scope of a run. -/
inductive TriggerLevel where
  /-- Without cloud accounts. -/
  | local
  /-- With cloud and cluster provisioning. -/
  | release
  deriving DecidableEq, Repr

namespace TriggerLevel

def every : List TriggerLevel := [.local, .release]

/-- The name of a level, in files and on command lines. -/
def name : TriggerLevel → String
  | .local => "local"
  | .release => "release"

/-- The level with a given name. -/
def parse (text : String) : Except ConfigError TriggerLevel :=
  match text with
  | "local" => .ok .local
  | "release" => .ok .release
  | _ => .error (.invalidValue "level" (.unknownLevel text))

/-- Runs of this level create cloud resources. -/
def provisionsCloud : TriggerLevel → Bool
  | .local => false
  | .release => true

def toJson (level : TriggerLevel) : Json := .str level.name

/-- Reads the written form. -/
def ofJson? : Json → Option TriggerLevel :=
  Json.choice? (every.map fun level => (level.name, level))

end TriggerLevel

/-- The event that sets off a run. -/
inductive TriggerEvent where
  | push
  | pullRequest
  | workflowDispatch
  | schedule
  deriving DecidableEq, Repr

namespace TriggerEvent

def every : List TriggerEvent := [.push, .pullRequest, .workflowDispatch, .schedule]

def name : TriggerEvent → String
  | .push => "push"
  | .pullRequest => "pull_request"
  | .workflowDispatch => "workflow_dispatch"
  | .schedule => "schedule"

/-- The event with a given name or short name. -/
def parse (text : String) : Except ConfigError TriggerEvent :=
  match text with
  | "push" => .ok .push
  | "pull_request" | "pr" => .ok .pullRequest
  | "workflow_dispatch" | "manual" => .ok .workflowDispatch
  | "schedule" | "nightly" | "cron" => .ok .schedule
  | _ => .error (.invalidValue "trigger" (.unknownTrigger text))

def toJson (event : TriggerEvent) : Json := .str event.name

/-- Reads the written form, which has no short names. -/
def ofJson? : Json → Option TriggerEvent :=
  Json.choice? (every.map fun event => (event.name, event))

end TriggerEvent

/-- The state that a run is in from beginning to end. -/
inductive Gate where
  | continuous
  | nightly
  deriving DecidableEq, Repr

namespace Gate

/-- The gate of an event. -/
def ofTrigger : TriggerEvent → Gate
  | .push | .pullRequest => .continuous
  | .schedule | .workflowDispatch => .nightly

def level : Gate → TriggerLevel
  | .continuous => .local
  | .nightly => .release

/-- A leak check ends the run. -/
def schedulesLeakCheck (gate : Gate) : Bool :=
  gate.level.provisionsCloud

def name : Gate → String
  | .continuous => "continuous"
  | .nightly => "nightly"

def toJson (gate : Gate) : Json := .str gate.name

end Gate

end CiPlan
