import CiPlan.Files
import CiPlan.Selector
import CiPlan.Time
import CiPlan.Trigger

/-!
# Planning errors

What can be wrong with a matrix, a corpus or a partition, and the wording of each.
-/

namespace CiPlan

/-- The most buckets in a matrix. -/
def maxBuckets : Nat := 256

/-- The most tests in a corpus. -/
def maxTests : Nat := 100000

/-- What is wrong with a bucket, or with all of them. -/
inductive BucketFault where
  | emptyName
  | emptyProfile
  /-- The time limit is outside its range. -/
  | badTimeout (secs : UInt64)
  | blankGroup
  | duplicateName
  | tooMany (count : Nat)
  | unknownProfile (profile : String)
  deriving DecidableEq, Repr

/-- The wording of a bucket's fault. -/
def BucketFault.message : BucketFault → String
  | .emptyName => "name must not be empty"
  | .emptyProfile => "profile must not be empty"
  | .badTimeout secs =>
    "timeout_secs must be 1-" ++ toString maxBucketTimeoutSecs.toNat ++ ", got " ++
      toString secs.toNat
  | .blankGroup => "exclusive_group must not be blank"
  | .duplicateName => "duplicate bucket name"
  | .tooMany count =>
    "too many buckets: " ++ toString count ++ " (max: " ++ toString maxBuckets ++ ")"
  | .unknownProfile profile => "unknown profile '" ++ profile ++ "'"

/-- Why a file cannot be loaded. -/
inductive LoadFault where
  /-- Its size cannot be had. -/
  | unknownSize (reason : IoError)
  | tooLarge (size limit : Nat)
  | unreadable (reason : IoError)
  /-- Its text is not well-formed or has values of the wrong types. -/
  | malformed
  | tooManyTests (count : Nat)
  | emptyTestName
  | duplicateTest (name : String)
  deriving DecidableEq, Repr

/-- The wording of a loading fault. -/
def LoadFault.message : LoadFault → String
  | .unknownSize reason => "failed to read file metadata: " ++ reason.message
  | .tooLarge size limit =>
    "file too large: " ++ toString size ++ " bytes (max: " ++ toString limit ++ ")"
  | .unreadable reason => "failed to read file: " ++ reason.message
  | .malformed => "YAML parse error"
  | .tooManyTests count =>
    "too many tests: " ++ toString count ++ " (max: " ++ toString maxTests ++ ")"
  | .emptyTestName => "test name must not be empty"
  | .duplicateTest name => "duplicate test '" ++ name ++ "'"

/-- What can go wrong in planning. -/
inductive PlannerError where
  | matrixLoad (path : String) (fault : LoadFault)
  | corpusLoad (path : String) (fault : LoadFault)
  | invalidBucket (bucket : String) (fault : BucketFault)
  /-- A selector of a bucket cannot be read. -/
  | selector (bucket : String) (reason : SelectorError)
  /-- The active buckets do not divide the tests up. -/
  | partitionViolated (level : TriggerLevel) (orphans duplicates empty : Nat)
  deriving DecidableEq, Repr

namespace PlannerError

/-- The counts of defects. -/
def defects (orphans duplicates empty : Nat) : String :=
  toString orphans ++ " orphaned, " ++ toString duplicates ++ " duplicated, " ++ toString empty ++
    " empty buckets"

def message : PlannerError → String
  | matrixLoad path fault => "matrix load error: " ++ path ++ ": " ++ fault.message
  | corpusLoad path fault => "corpus load error: " ++ path ++ ": " ++ fault.message
  | invalidBucket bucket fault => "invalid bucket '" ++ bucket ++ "': " ++ fault.message
  | selector bucket reason => "invalid selector in bucket '" ++ bucket ++ "': " ++ reason.message
  | partitionViolated level orphans duplicates empty =>
    "partition check failed at level '" ++ level.name ++ "': " ++ defects orphans duplicates empty

/-- The message of an error where commands report it. -/
def summary : PlannerError → String
  | matrixLoad path fault => "matrix load failed: " ++ path ++ ": " ++ fault.message
  | corpusLoad path fault => "corpus load failed: " ++ path ++ ": " ++ fault.message
  | invalidBucket bucket fault => "invalid bucket '" ++ bucket ++ "': " ++ fault.message
  | selector bucket reason => "invalid bucket '" ++ bucket ++ "': " ++ reason.message
  | partitionViolated _ orphans duplicates empty =>
    "partition check failed: " ++ defects orphans duplicates empty

end PlannerError

end CiPlan
