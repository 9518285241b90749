import CiPlan.Cli.Page
import CiPlan.Plan

/-!
# Pages about plans, partitions and selectors
-/

namespace CiPlan.Cli

open Page

/-- The line of a warning. -/
def warningLine (indent : String) (warning : LintWarning) : String :=
  indent ++ "warning: " ++ warning.display

section Plan

/-- The options by which a bucket selects its tests, as they are displayed. -/
def selectorText (b : Bucket) : String :=
  "-m \"" ++ b.marker.source ++ "\"" ++
    match b.keyword with
    | some keyword => " -k \"" ++ keyword.source ++ "\""
    | none => ""

/-- A row of the table of buckets. -/
def planRow (bucket profile tests selector : String) : String :=
  padEnd 32 bucket ++ " " ++ padEnd 18 profile ++ " " ++ padStart 6 tests ++ "  " ++ selector

/-- The tests that a page lists under a bucket. -/
def listedTests (withTests : Bool) (b : PlannedBucket) : List String :=
  if withTests then b.tests else []

/-- The lines of a bucket. -/
def bucketLines (withTests : Bool) (b : PlannedBucket) : List String :=
  planRow b.bucket.name b.profile.name (toString b.tests.length) (selectorText b.bucket) ::
    (listedTests withTests b).map ("    " ++ ·)

/-- The line about the leak check of a plan. -/
def leakCheckLine (p : Plan) : String :=
  if p.leakCheckScheduled then
    let targets :=
      if p.leakCheckTargets.isEmpty then "no cloud targets"
      else ", ".intercalate (p.leakCheckTargets.map (·.name))
    "Leak check: scheduled (" ++ targets ++ ")"
  else "Leak check: not scheduled"

/-- The written form of a bucket of a plan. -/
def bucketSummary (withTests : Bool) (b : PlannedBucket) : Json :=
  .obj ([("name", .str b.bucket.name), ("profile", .str b.profile.name),
      ("marker", .str b.bucket.marker.source)] ++
    Json.fieldOf? "keyword" (b.bucket.keyword.map fun k => .str k.source) ++
    Json.fieldOf? "timeout_secs" (b.bucket.timeoutSecs.map .u64) ++
    [("test_count", .nat b.tests.length)] ++
    if (listedTests withTests b).isEmpty then []
    else [("tests", .strs (listedTests withTests b))])

/-- A plan, with or without its tests. -/
def Page.ofPlan (p : Plan) (withTests : Bool) : Page where
  text := lines (
    ["Plan for " ++ p.trigger.name ++ " (gate: " ++ p.gate.name ++ ", level: " ++ p.level.name ++ ")",
      "", planRow "BUCKET" "PROFILE" "TESTS" "SELECTOR", String.ofList (List.replicate 96 '-')] ++
    p.buckets.flatMap (bucketLines withTests) ++ ["", leakCheckLine p] ++
    p.warnings.map (warningLine ""))
  json := .obj [("trigger", p.trigger.toJson), ("gate", p.gate.toJson), ("level", p.level.toJson),
    ("buckets", .arr (p.buckets.map (bucketSummary withTests))),
    ("leak_check", .bool p.leakCheckScheduled),
    ("leak_check_targets", .strs (p.leakCheckTargets.map (·.name))),
    ("warnings", .strs (p.warnings.map (·.display)))]

end Plan

section Partition

/-- A heading with the items under it; nothing without items. -/
def itemLines (heading : String) (items : List String) : List String :=
  if items.isEmpty then []
  else ("  " ++ heading ++ " (" ++ toString items.length ++ "):") :: items.map ("    - " ++ ·)

/-- A partition. -/
def Page.ofPartition (r : PartitionReport) : Page where
  text := lines (
    ["Level " ++ r.level.name ++ ": " ++ (if r.isClean then "CLEAN" else "DEFECTS") ++ " (" ++
      toString r.applicable ++ " applicable tests)"] ++
    r.selections.map (fun s =>
      "  " ++ padEnd 40 s.bucket ++ " " ++ padStart 5 (toString s.tests.length)) ++
    itemLines "Orphaned tests" r.orphans ++
    itemLines "Duplicated tests" (r.duplicates.map (·.display)) ++
    itemLines "Empty buckets" r.emptyBuckets ++ r.warnings.map (warningLine "  "))
  json := .obj [("level", r.level.toJson), ("clean", .bool r.isClean),
    ("applicable", .nat r.applicable),
    ("buckets", .arr (r.selections.map fun s =>
      .obj [("bucket", .str s.bucket), ("tests", .nat s.tests.length)])),
    ("orphans", .strs r.orphans), ("duplicates", .strs (r.duplicates.map (·.display))),
    ("empty_buckets", .strs r.emptyBuckets), ("warnings", .strs (r.warnings.map (·.display)))]

/-- The partitions of several levels. -/
def Page.ofPartitions (rs : List PartitionReport) : Page where
  text := "\n".intercalate (rs.map fun r => (Page.ofPartition r).text)
  json := .obj [("levels", .arr (rs.map fun r => (Page.ofPartition r).json))]

end Partition

/-- What a selector was found to select. -/
structure SelectReport where
  selector : Selector
  /-- Its terms that are no known tags, where tags are the question. -/
  unknownTerms : List String
  /-- It matches what it was tried on. -/
  matched : Option Bool
  /-- The tests of the corpus that it selects. -/
  selected : Option (List String)

/-- What a selector was found to select. -/
def Page.ofSelect (r : SelectReport) : Page where
  text := lines (
    ["Expression: " ++ r.selector.source, "Canonical:  " ++ r.selector.canonical] ++
    (if r.selector.terms.isEmpty then []
      else ["Terms:      " ++ ", ".intercalate r.selector.terms.names]) ++
    r.unknownTerms.map (fun term =>
      "warning: '" ++ term ++ "' is not a known tag and never matches") ++
    (match r.matched with
      | some matched => ["Result:     " ++ if matched then "MATCH" else "NO MATCH"]
      | none => []) ++
    (match r.selected with
      | some tests => ("Selected " ++ toString tests.length ++ " tests:") :: tests.map ("  " ++ ·)
      | none => []))
  json := .obj ([("expression", .str r.selector.source), ("canonical", .str r.selector.canonical),
      ("terms", .strs r.selector.terms.names)] ++
    (if r.unknownTerms.isEmpty then [] else [("unknown_terms", .strs r.unknownTerms)]) ++
    Json.fieldOf? "matched" (r.matched.map .bool) ++
    Json.fieldOf? "selected" (r.selected.map .strs))

end CiPlan.Cli
