import CiPlan.Json.Printer
import CiPlan.Time

/-!
# Pages

What a command shows, as a text for people and as a JSON value for programs.
-/

namespace CiPlan.Cli

/-- What a command shows, in both forms. -/
structure Page where
  text : String
  json : Json

/-- What a text shows of the run that it reports and of the times that were measured. -/
structure Style where
  /-- The name of the run. -/
  runId : String
  /-- The time that a bucket took, after the count of its tests. -/
  bucketTime : Duration → String
  /-- The time that a leak check took. -/
  checkTime : Duration → String

namespace Page

/-- Blanks at the end of a text, up to a width in characters. -/
def padEnd (width : Nat) (s : String) : String :=
  s ++ String.ofList (List.replicate (width - s.length) ' ')

/-- Blanks in front of a text, up to a width in characters. -/
def padStart (width : Nat) (s : String) : String :=
  String.ofList (List.replicate (width - s.length) ' ') ++ s

/-- Lines, each with its end. -/
def lines (ls : List String) : String :=
  String.join (ls.map (· ++ "\n"))

end Page

/-- A length of time in tenths of a second; a half of a tenth goes to the even neighbour. -/
def tenths (d : Duration) : Nat :=
  let unit := Duration.perSecond / 10
  let q := d / unit
  let r := d % unit
  if 2 * r < unit || (2 * r == unit && q % 2 == 0) then q else q + 1

/-- A length of time in seconds with one place. -/
def secondsText (d : Duration) : String :=
  toString (tenths d / 10) ++ "." ++ toString (tenths d % 10)

/-- The style of a run with a name, with the times that were measured. -/
def Style.ofRunId (runId : String) : Style where
  runId
  bucketTime d := "  " ++ Page.padStart 8 (secondsText d) ++ "s"
  checkTime d := toString d.wholeSecs ++ "s"

end CiPlan.Cli
