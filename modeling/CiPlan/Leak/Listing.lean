import CiPlan.Config.Validate
import CiPlan.Leak.Error
import CiPlan.Text.Search

/-!
# Status listings

A status command lists the resources that exist, one on a line.  A `StatusParser` reads the resource
of a line and decides which resources are leaked: those that are running and belong to the run.

The parser is a record of two functions, one that reads a line and one that attributes a name, so
nothing in the reading of listings depends on how patterns are searched.
-/

namespace CiPlan

/-- A resource in a listing. -/
structure Resource where
  name : String
  status : String
  deriving DecidableEq, Repr

def Resource.toJson (r : Resource) : Json :=
  .obj [("name", .str r.name), ("status", .str r.status)]

/-- How listings are read. -/
structure StatusParser where
  /-- The resource of a line, which has no blanks at its end. -/
  readLine : String → Option Resource
  /-- A resource of this name belongs to the run. -/
  attributes : String → Bool
  /-- The states in which a resource is running. -/
  runningStates : List String

namespace StatusParser

/-- The groups that the pattern of lines needs. -/
def neededGroups : List String := ["name", "status"]

/-- The pattern of a field. -/
def patternOf [Formats] (field text : String) : Except LeakCheckError Pattern :=
  (Formats.pattern text).mapError fun e => .pattern field (.invalid e)

/-- The parser with these patterns. -/
def ofPatterns [Formats] (linePattern resourcePattern : String) (runningStates : List String) :
    Except LeakCheckError StatusParser := do
  let line ← patternOf "status_line_pattern" linePattern
  neededGroups.forM fun group =>
    if line.hasGroup group then pure ()
    else throw (.pattern "status_line_pattern" (.missingGroup group))
  let attribution ← patternOf "resource_pattern" resourcePattern
  let readLine (text : String) : Option Resource := do
    let captures ← line.captures text
    return ⟨← captures "name", ← captures "status"⟩
  return ⟨readLine, attribution.isMatch, runningStates⟩

def ofConfig [Formats] (c : LeakCheckConfig) : Except LeakCheckError StatusParser :=
  ofPatterns c.statusLinePattern c.resourcePattern c.runningStates

/-- The lines of a text.  A line ends at a line feed, which a carriage return may precede; what is
after the last line feed is a line unless it is empty.  `acc` holds the line that is being read,
latest first. -/
def splitLines (acc : List Char) : List Char → List (List Char)
  | [] => if acc.isEmpty then [] else [acc.reverse]
  | c :: cs =>
    if c == '\n' then
      (match acc with
        | '\r' :: line => line.reverse
        | line => line.reverse) :: splitLines [] cs
    else splitLines (c :: acc) cs

/-- The resources of a listing, in order. -/
def parse (p : StatusParser) (listing : String) : List Resource :=
  (splitLines [] listing.toList).filterMap fun line =>
    p.readLine (String.ofList (Text.trimEndChars line))

/-- A resource in this state is running. -/
def isRunning (p : StatusParser) (status : String) : Bool :=
  p.runningStates.any fun state => Text.eqIgnoringAsciiCase state status

/-- The resource is running and belongs to the run. -/
def isLeaked (p : StatusParser) (r : Resource) : Bool :=
  p.isRunning r.status && p.attributes r.name

/-- The leaked resources of a listing, in order. -/
def leaked (p : StatusParser) (listing : String) : List Resource :=
  (p.parse listing).filter p.isLeaked

end StatusParser

end CiPlan
