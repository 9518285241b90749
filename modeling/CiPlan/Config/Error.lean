import CiPlan.Pattern.Error

/-!
# Configuration errors

What can be wrong with a configuration, from the file that is missing to the value that is out of
range, and the wording of each.
-/

namespace CiPlan

/-- What is wrong with a value. -/
inductive Complaint where
  /-- It is none of the allowed texts. -/
  | notOneOf (allowed : List String)
  | emptyTaxonomy
  | emptyCommand
  /-- It is outside a range. -/
  | outside (low high : Nat)
  | notPositive
  | belowPollInterval
  | aboveMaxWait
  | noRunningState
  /-- It is no regular expression. -/
  | badPattern (reason : PatternError)
  /-- It is a regular expression without a group that is needed. -/
  | missingGroup (group : String)
  | emptyProfileName
  | duplicateProfile (name : String)
  | unknownLevel (text : String)
  | unknownTrigger (text : String)
  deriving DecidableEq, Repr

/-- The wording of a complaint. -/
def Complaint.message : Complaint → String
  | .notOneOf allowed => "must be one of: " ++ ", ".intercalate allowed
  | .emptyTaxonomy => "taxonomy must contain at least one tag"
  | .emptyCommand => "command must not be empty"
  | .outside low high => "must be " ++ toString low ++ "-" ++ toString high
  | .notPositive => "must be greater than 0"
  | .belowPollInterval => "must be >= poll_interval_secs"
  | .aboveMaxWait => "must not exceed max_wait_secs"
  | .noRunningState => "at least one running state is required"
  | .badPattern reason => reason.message
  | .missingGroup group => "missing named capture group '" ++ group ++ "'"
  | .emptyProfileName => "profile name must not be empty"
  | .duplicateProfile name => "duplicate profile '" ++ name ++ "'"
  | .unknownLevel text => "unknown trigger level '" ++ text ++ "' (expected local, release)"
  | .unknownTrigger text =>
    "unknown trigger '" ++ text ++
      "' (expected push, pull_request, workflow_dispatch, schedule)"

/-- Why a configuration text cannot be read. -/
inductive Unreadable where
  /-- It is not well-formed. -/
  | malformed
  /-- A value is missing or of the wrong type. -/
  | mistyped
  deriving DecidableEq, Repr

/-- The wording of a reading failure. -/
def Unreadable.message : Unreadable → String
  | .malformed => "the text is malformed"
  | .mistyped => "a value is missing or has the wrong type"

/-- What can be wrong with a configuration. -/
inductive ConfigError where
  | fileNotFound (path : String)
  | parseFailed (reason : Unreadable)
  | invalidValue (field : String) (complaint : Complaint)
  deriving DecidableEq, Repr

/-- The message of a configuration error. -/
def ConfigError.message : ConfigError → String
  | .fileNotFound path => "config file not found: " ++ path
  | .parseFailed reason => "failed to parse config: " ++ reason.message
  | .invalidValue field complaint =>
    "invalid config value for '" ++ field ++ "': " ++ complaint.message

end CiPlan
