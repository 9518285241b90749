import CiPlan.Corpus
import CiPlan.Matrix
import CiPlan.Metric

/-!
# Partitions

At a level, the active buckets of a matrix divide up the tests for that level.  The tests are taken
one after the other, and each is offered to every active bucket.  The report of a partition lists
what each bucket selects and every defect:

* an orphan is a test that no active bucket selects;
* a duplicate is a test that two or more active buckets of one exclusive group select;
* an empty bucket is an active bucket that selects no test.

Tags outside the taxonomy are worth a warning only.
-/

namespace CiPlan

/-- The tests that a bucket selects. -/
structure Selection where
  bucket : String
  tests : List String
  deriving DecidableEq, Repr

/-- A test that several buckets of a group select. -/
structure Duplicate where
  test : String
  group : String
  /-- The buckets, in the order of the matrix. -/
  buckets : List String
  deriving DecidableEq, Repr

/-- A tag that is not in the taxonomy. -/
inductive LintWarning where
  /-- The marker of a bucket mentions it. -/
  | unknownSelectorTag (bucket tag : String)
  /-- A test carries it. -/
  | unknownTestTag (test tag : String)
  deriving DecidableEq, Repr

/-- What the active buckets make of the tests. -/
structure PartitionReport where
  level : TriggerLevel
  /-- How many tests are for the level. -/
  applicable : Nat
  selections : List Selection
  orphans : List String
  duplicates : List Duplicate
  emptyBuckets : List String
  warnings : List LintWarning
  deriving DecidableEq, Repr

namespace Selection

def toJson (s : Selection) : Json :=
  .obj [("bucket", .str s.bucket), ("tests", .strs s.tests)]

end Selection

namespace Duplicate

/-- A duplicate as it is displayed. -/
def display (d : Duplicate) : String :=
  d.test ++ " selected by [" ++ ", ".intercalate d.buckets ++ "] in group '" ++ d.group ++ "'"

def toJson (d : Duplicate) : Json :=
  .obj [("test", .str d.test), ("group", .str d.group), ("buckets", .strs d.buckets)]

end Duplicate

namespace LintWarning

/-- A warning as it is displayed. -/
def display : LintWarning → String
  | unknownSelectorTag bucket tag =>
    "bucket '" ++ bucket ++ "' references unknown tag '" ++ tag ++ "'"
  | unknownTestTag test tag => "test '" ++ test ++ "' carries unknown tag '" ++ tag ++ "'"

def toJson : LintWarning → Json
  | unknownSelectorTag bucket tag =>
    .obj [("kind", .str "unknown_selector_tag"), ("bucket", .str bucket), ("tag", .str tag)]
  | unknownTestTag test tag =>
    .obj [("kind", .str "unknown_test_tag"), ("test", .str test), ("tag", .str tag)]

end LintWarning

/-- The tags of a test that are not in a taxonomy. -/
def testWarnings (taxonomy : List String) (test : TestCase) : List LintWarning :=
  (test.tags.names.filter (!taxonomy.contains ·)).map (.unknownTestTag test.name)

/-- The terms of a bucket's marker that are not in a taxonomy. -/
def selectorWarnings (taxonomy : List String) (b : Bucket) : List LintWarning :=
  (b.marker.terms.names.filter (!taxonomy.contains ·)).map (.unknownSelectorTag b.name)

/-- The buckets of each exclusive group that select a test, in the order of the matrix; the groups
are in code point order. -/
abbrev GroupTable := List (String × List String)

/-- Adds a bucket to its group. -/
def GroupTable.add (group bucket : String) : GroupTable → GroupTable
  | [] => [(group, [bucket])]
  | (g, buckets) :: rest =>
    if group < g then (group, [bucket]) :: (g, buckets) :: rest
    else if group = g then (g, buckets ++ [bucket]) :: rest
    else (g, buckets) :: add group bucket rest

/-- The groups that have two or more buckets. -/
def GroupTable.duplicates (test : String) (groups : GroupTable) : List Duplicate :=
  groups.filterMap fun (group, buckets) =>
    if 1 < buckets.length then some ⟨test, group, buckets⟩ else none

/-- The tests that a bucket has got so far. -/
structure Intake where
  bucket : String
  tests : Array String

/-- What is known about a test after some of the buckets. -/
structure Match where
  /-- A bucket selects it. -/
  found : Bool
  groups : GroupTable

/-- A bucket selects the test. -/
def Match.add (m : Match) (b : Bucket) : Match where
  found := true
  groups := b.exclusiveGroup.elim m.groups fun group => m.groups.add group b.name

/-- Offers a test to the buckets one after the other; those that select it take it in. -/
def offer (test : TestCase) (m : Match) : List Bucket → List Intake → List Intake × Match
  | b :: buckets, i :: intakes =>
    if b.selects test then
      let (intakes, m) := offer test (m.add b) buckets intakes
      (⟨i.bucket, i.tests.push test.name⟩ :: intakes, m)
    else
      let (intakes, m) := offer test m buckets intakes
      (i :: intakes, m)
  | _, intakes => (intakes, m)

/-- What is known about a partition after some of the tests. -/
structure Survey where
  applicable : Nat
  /-- One for each active bucket. -/
  intakes : List Intake
  orphans : Array String
  duplicates : Array Duplicate
  warnings : Array LintWarning

/-- Before the first test no bucket has any. -/
def Survey.start (active : List Bucket) : Survey :=
  ⟨0, active.map fun b => ⟨b.name, #[]⟩, #[], #[], #[]⟩

/-- Takes one more test into account. -/
def Survey.visit (taxonomy : List String) (active : List Bucket) (s : Survey) (test : TestCase) :
    Survey :=
  let (intakes, m) := offer test ⟨false, []⟩ active s.intakes
  { applicable := s.applicable + 1
    intakes
    orphans := if m.found then s.orphans else s.orphans.push test.name
    duplicates := s.duplicates ++ m.groups.duplicates test.name
    warnings := s.warnings ++ testWarnings taxonomy test }

/-- The partition of a corpus by the buckets of a level. -/
def verifyPartition (taxonomy : List String) (matrix : Matrix) (corpus : Corpus)
    (level : TriggerLevel) : PartitionReport :=
  let active := matrix.active level
  let survey := (corpus.applicable level).foldl (Survey.visit taxonomy active) (.start active)
  let selections := survey.intakes.map fun i => ⟨i.bucket, i.tests.toList⟩
  { level
    applicable := survey.applicable
    selections
    orphans := survey.orphans.toList
    duplicates := survey.duplicates.toList
    emptyBuckets := (selections.filter (·.tests.isEmpty)).map (·.bucket)
    warnings := survey.warnings.toList ++ active.flatMap (selectorWarnings taxonomy) }

namespace PartitionReport

/-- There is no defect. -/
def isClean (r : PartitionReport) : Bool :=
  r.orphans.isEmpty && r.duplicates.isEmpty && r.emptyBuckets.isEmpty

/-- Fails with the counts of the defects, if there are any. -/
def ensureClean (r : PartitionReport) : Except PlannerError Unit :=
  if r.isClean then .ok ()
  else .error (.partitionViolated r.level r.orphans.length r.duplicates.length
    r.emptyBuckets.length)

/-- The selection of a bucket. -/
def selection? (r : PartitionReport) (bucket : String) : Option Selection :=
  r.selections.find? (·.bucket == bucket)

/-- The buckets that select a test. -/
def bucketsFor (r : PartitionReport) (test : String) : List String :=
  (r.selections.filter (·.tests.contains test)).map (·.bucket)

def fields (r : PartitionReport) : List (String × Json) :=
  [("level", r.level.toJson), ("applicable", .nat r.applicable),
    ("selections", .arr (r.selections.map Selection.toJson)), ("orphans", .strs r.orphans),
    ("duplicates", .arr (r.duplicates.map Duplicate.toJson)),
    ("empty_buckets", .strs r.emptyBuckets),
    ("warnings", .arr (r.warnings.map LintWarning.toJson))]

def toJson (r : PartitionReport) : Json := .obj r.fields

/-- The metrics of a verification. -/
def metrics (r : PartitionReport) : List Metric.Sample :=
  [Metric.set .planOrphans r.orphans.length, Metric.set .planDuplicates r.duplicates.length,
    Metric.set .planEmptyBuckets r.emptyBuckets.length]

end PartitionReport

end CiPlan
