import CiPlan.Config
import CiPlan.Formats
import CiPlan.Matrix.Builtin
import CiPlan.Plan

/-!
# Loading matrices and corpora

Matrices and corpora are kept in YAML files of limited size.  A matrix may have no fields but those
that are known; in a corpus others are ignored.
-/

namespace CiPlan

/-- A level. -/
def TriggerLevel.ofYaml? (v : Yaml) : Option TriggerLevel := do
  (every.map fun level => (level.name, level)).lookup (← v.text?)

/-- A bucket whose selectors are yet to be read. -/
def Bucket.ofYaml? (v : Yaml) : Option (Except PlannerError Bucket) := do
  let fields ← v.fields?
    ["name", "level", "marker", "keyword", "profile", "timeout_secs", "exclusive_group"] false
  let name ← fields.required "name" Yaml.text?
  let level ← fields.required "level" TriggerLevel.ofYaml?
  let marker ← fields.required "marker" Yaml.text?
  let keyword ← fields.withDefault "keyword" none (Yaml.optional? Yaml.text?)
  let profile ← fields.required "profile" Yaml.text?
  let timeoutSecs ← fields.withDefault "timeout_secs" none (Yaml.optional? Yaml.u64?)
  let exclusiveGroup ← fields.withDefault "exclusive_group" none (Yaml.optional? Yaml.text?)
  return Bucket.read name level marker keyword profile timeoutSecs exclusiveGroup

/-- A test. -/
def TestCase.ofYaml? (v : Yaml) : Option TestCase := do
  let fields ← v.fields? ["name", "tags", "levels"] true
  let name ← fields.required "name" Yaml.text?
  let tags ← fields.withDefault "tags" [] (Yaml.list? Yaml.text?)
  let levels ← fields.withDefault "levels" [] (Yaml.list? TriggerLevel.ofYaml?)
  return ⟨name, .ofList tags, levels⟩

/-- The matrix that a text spells.  The selectors are read only when the whole text has been. -/
def Matrix.parse [Formats] (source text : String) : Except PlannerError Matrix := do
  let buckets? := do
    let fields ← (← Formats.yaml text).fields? ["buckets"] false
    fields.required "buckets" (Yaml.list? Bucket.ofYaml?)
  match buckets? with
  | none => throw (.matrixLoad source .malformed)
  | some buckets => Matrix.ofBuckets (← buckets.mapM id)

set_option maxRecDepth 20000 in
/-- The file of the built-in matrix spells the built-in matrix. -/
theorem Matrix.parse_builtinText : Matrix.parse "<builtin>" builtinText = .ok .builtin := by
  have hread : Formats.yaml builtinText = Yaml.parseChars? _ := Yaml.parse?_of_eq rfl
  have hparse : (Matrix.parse "<builtin>" builtinText).toOption = some .builtin := by
    rw [Matrix.parse, hread]
    decide +kernel
  cases h : Matrix.parse "<builtin>" builtinText with
  | error e =>
      rw [h] at hparse
      cases hparse
  | ok m =>
      rw [h] at hparse
      rw [Option.some.inj hparse]

/-- The corpus that a text spells. -/
def Corpus.parse [Formats] (source text : String) : Except PlannerError Corpus :=
  let tests? := do
    let fields ← (← Formats.yaml text).fields? ["tests"] true
    fields.required "tests" (Yaml.list? TestCase.ofYaml?)
  match tests? with
  | none => .error (.corpusLoad source .malformed)
  | some tests => Corpus.ofTests source tests

/-- The most bytes of a matrix file. -/
def maxMatrixSize : Nat := 1024 * 1024

/-- The most bytes of a corpus file. -/
def maxCorpusSize : Nat := 16 * 1024 * 1024

/-- The text of a file of limited size. -/
def FileSystem.readUpTo (files : FileSystem) (limit : Nat) (path : String) :
    Except LoadFault String :=
  match files path with
  | .error reason => .error (.unknownSize reason)
  | .ok file =>
    if limit < file.size then .error (.tooLarge file.size limit)
    else file.text.mapError .unreadable

/-- The matrix in a file; the built-in one when no path is given. -/
def Matrix.load [Formats] (files : FileSystem) (path : String) : Except PlannerError Matrix := do
  if Text.isBlankText path then return .builtin
  Matrix.parse path (← (files.readUpTo maxMatrixSize path).mapError (.matrixLoad path))

/-- The corpus in a file. -/
def Corpus.load [Formats] (files : FileSystem) (path : String) : Except PlannerError Corpus := do
  Corpus.parse path (← (files.readUpTo maxCorpusSize path).mapError (.corpusLoad path))

/-- The planner of a configuration. -/
def Planner.ofConfig [Formats] (files : FileSystem) (c : Config) : Except PlannerError Planner := do
  let matrix ← Matrix.load files c.planner.matrixPath
  let corpus ← Corpus.load files c.planner.corpusPath
  Planner.ofParts c.planner.taxonomy matrix corpus (Profile.merge c.profiles)

end CiPlan
