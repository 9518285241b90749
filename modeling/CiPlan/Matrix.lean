import CiPlan.Plan.Error
import CiPlan.Profile
import CiPlan.TestCase
import CiPlan.Time

/-!
# Matrices of buckets

A bucket says which tests are run together: those of its level whose tags its marker accepts and
whose name its keyword accepts.  A matrix is a list of buckets that passed its check, which the type
records.
-/

namespace CiPlan

/-- Which tests are run together, and how. -/
structure Bucket where
  name : String
  /-- The level at which the bucket is active. -/
  level : TriggerLevel
  /-- Which tags a test has. -/
  marker : Selector
  /-- What the name of a test contains; anything when missing. -/
  keyword : Option Selector
  /-- The name of the profile that the tests run under. -/
  profile : String
  /-- The time limit; that of the runner when missing. -/
  timeoutSecs : Option UInt64
  /-- No two buckets of a group may select the same test. -/
  exclusiveGroup : Option String
  deriving DecidableEq

namespace Bucket

/-- The selector of a bucket's field. -/
def selectorOf (bucket text : String) : Except PlannerError Selector :=
  (Selector.parse text).mapError (.selector bucket)

/-- The bucket with selectors that are yet to be read, the marker first. -/
def read (name : String) (level : TriggerLevel) (marker : String) (keyword : Option String)
    (profile : String) (timeoutSecs : Option UInt64) (exclusiveGroup : Option String) :
    Except PlannerError Bucket := do
  let marker ← selectorOf name marker
  let keyword ← match keyword with
    | none => pure none
    | some text => some <$> selectorOf name text
  return { name, level, marker, keyword, profile, timeoutSecs, exclusiveGroup }

/-- The bucket runs a test. -/
def selects (b : Bucket) (test : TestCase) : Bool :=
  b.marker.matchesTags test.tags && b.keyword.all (·.matchesName test.name)

/-- The time limit in seconds, with a default. -/
def effectiveTimeout (b : Bucket) (defaultSecs : UInt64) : UInt64 :=
  b.timeoutSecs.getD defaultSecs

/-- The time limit is within its range. -/
def isTimeout (secs : UInt64) : Bool :=
  0 < secs && secs ≤ maxBucketTimeoutSecs

/-- The first fault of a bucket, if it has one. -/
def fault? (b : Bucket) : Option BucketFault :=
  if Text.isBlankText b.name then some .emptyName
  else if Text.isBlankText b.profile then some .emptyProfile
  else match b.timeoutSecs.filter (!isTimeout ·) with
    | some secs => some (.badTimeout secs)
    | none => if b.exclusiveGroup.any Text.isBlankText then some .blankGroup else none

def toJson (b : Bucket) : Json :=
  .obj ([("name", .str b.name), ("level", b.level.toJson), ("marker", .str b.marker.source)] ++
    Json.fieldOf? "keyword" (b.keyword.map fun k => .str k.source) ++
    [("profile", .str b.profile)] ++
    Json.fieldOf? "timeout_secs" (b.timeoutSecs.map .u64) ++
    Json.fieldOf? "exclusive_group" (b.exclusiveGroup.map .str))

end Bucket

namespace Matrix

/-- Checks buckets that follow those with the names in `seen`. -/
def checkFrom (seen : List String) : List Bucket → Except PlannerError Unit
  | [] => .ok ()
  | b :: rest =>
    match b.fault? with
    | some fault => .error (.invalidBucket b.name fault)
    | none =>
      if seen.contains b.name then .error (.invalidBucket b.name .duplicateName)
      else checkFrom (b.name :: seen) rest

/-- Checks the buckets of a matrix: there are not too many, each is valid, and no two have the same
name. -/
def check (buckets : List Bucket) : Except PlannerError Unit :=
  if maxBuckets < buckets.length then .error (.invalidBucket "*" (.tooMany buckets.length))
  else checkFrom [] buckets

/-- The check has one way to pass. -/
theorem check_eq_ok_iff {buckets : List Bucket} :
    check buckets = .ok () ↔ (check buckets).isOk = true := by
  cases check buckets <;> simp [Except.isOk, Except.toBool]

end Matrix

/-- A checked list of buckets. -/
structure Matrix where
  buckets : List Bucket
  /-- The buckets passed the check. -/
  checked : Matrix.check buckets = .ok ()
  deriving DecidableEq

namespace Matrix

/-- The matrix of some buckets. -/
def ofBuckets (buckets : List Bucket) : Except PlannerError Matrix :=
  match h : check buckets with
  | .ok () => .ok ⟨buckets, h⟩
  | .error e => .error e

/-- The bucket with a name. -/
def get? (m : Matrix) (name : String) : Option Bucket :=
  m.buckets.find? (·.name == name)

/-- The buckets of a level, in order. -/
def active (m : Matrix) (level : TriggerLevel) : List Bucket :=
  m.buckets.filter fun b => b.level = level

/-- Checks that the profile of each bucket is there. -/
def checkProfiles (m : Matrix) (profiles : List Profile) : Except PlannerError Unit :=
  m.buckets.forM fun b =>
    if profiles.any (·.name == b.profile) then .ok ()
    else .error (.invalidBucket b.name (.unknownProfile b.profile))

def toJson (m : Matrix) : Json := .arr (m.buckets.map Bucket.toJson)

end Matrix

end CiPlan
