import CiPlan.NameSet
import CiPlan.Trigger

/-!
# Test cases

A test of the external suite: its name, its tags, and the levels that it is for.
-/

namespace CiPlan

/-- The tags that tests carry by default. -/
def defaultTaxonomy : List String :=
  ["clustertest", "ondemand", "multinode", "servertest", "secrettest", "moduletest",
    "functiontest"]

/-- The written form of a set of names. -/
def NameSet.toJson (s : NameSet) : Json := .strs s.names

/-- Reads a set of names, in any order and with repetitions. -/
def NameSet.ofJson? (j : Json) : Option NameSet :=
  (j.list? Json.str?).map NameSet.ofList

/-- A test of the suite. -/
structure TestCase where
  name : String
  tags : NameSet
  /-- The levels that the test is for; none means every level. -/
  levels : List TriggerLevel
  deriving DecidableEq

namespace TestCase

/-- The test is for this level. -/
def appliesTo (test : TestCase) (level : TriggerLevel) : Bool :=
  test.levels.isEmpty || test.levels.contains level

def toJson (test : TestCase) : Json :=
  .obj [("name", .str test.name), ("tags", test.tags.toJson),
    ("levels", .arr (test.levels.map TriggerLevel.toJson))]

/-- Reads the written form; without tags there are none, and without levels the test is for all. -/
def ofJson? (j : Json) : Option TestCase := do
  let fields ← j.fields? ["name", "tags", "levels"]
  let name ← fields.required "name" Json.str?
  let tags ← fields.withDefault "tags" NameSet.empty NameSet.ofJson?
  let levels ← fields.withDefault "levels" [] (Json.list? TriggerLevel.ofJson?)
  return ⟨name, tags, levels⟩

end TestCase

end CiPlan
