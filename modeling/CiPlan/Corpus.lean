import CiPlan.Plan.Error
import CiPlan.TestCase
import Std.Data.HashSet

/-!
# Corpora of tests

The tests of the suite, in the order in which they were collected.
-/

namespace CiPlan

/-- The tests of the suite. -/
structure Corpus where
  tests : List TestCase
  deriving DecidableEq

namespace Corpus

/-- The first fault of tests that follow those with the names in `seen`. -/
def faultFrom? (seen : Std.HashSet String) : List TestCase → Option LoadFault
  | [] => none
  | t :: rest =>
    if Text.isBlankText t.name then some .emptyTestName
    else if seen.contains t.name then some (.duplicateTest t.name)
    else faultFrom? (seen.insert t.name) rest

/-- The first fault of some tests: there are not too many, and each has a name of its own. -/
def fault? (tests : List TestCase) : Option LoadFault :=
  if maxTests < tests.length then some (.tooManyTests tests.length) else faultFrom? ∅ tests

/-- The corpus of some tests, which come from a given place. -/
def ofTests (source : String) (tests : List TestCase) : Except PlannerError Corpus :=
  match fault? tests with
  | some fault => .error (.corpusLoad source fault)
  | none => .ok ⟨tests⟩

/-- The first test with a name. -/
def get? (c : Corpus) (name : String) : Option TestCase :=
  c.tests.find? (·.name == name)

/-- The tests for a level, in order. -/
def applicable (c : Corpus) (level : TriggerLevel) : List TestCase :=
  c.tests.filter (·.appliesTo level)

def toJson (c : Corpus) : Json :=
  .obj [("tests", .arr (c.tests.map TestCase.toJson))]

/-- Reads the written form, which is not checked. -/
def ofJson? (j : Json) : Option Corpus := do
  let fields ← j.fields? ["tests"]
  return ⟨← fields.required "tests" (Json.list? TestCase.ofJson?)⟩

end Corpus

end CiPlan
