import CiPlan.Cli.Error
import CiPlan.Cli.Page
import CiPlan.Config.File

/-!
# Pages about the configuration
-/

namespace CiPlan.Cli

open Page

/-- Whether the configuration of a file is valid. -/
def Page.ofValidation (path : String) (result : Except Failure Unit) : Page :=
  let errors := match result with
    | .ok () => []
    | .error e => [e.message]
  { text := lines (
      ["Config Validation: " ++ path,
        "  Result: " ++ if errors.isEmpty then "VALID" else "INVALID"] ++
      errors.map ("  Error: " ++ ·))
    json := .obj [("source", .str path), ("valid", .bool errors.isEmpty),
      ("errors", .strs errors)] }

/-- Some settings as a document, or why they cannot be written. -/
def settingsText (fields : List (String × Json)) : String :=
  match Config.document fields with
  | .ok text => text
  | .error e => "(serialization error: " ++ e.message ++ ")"

/-- The settings of a section; the profiles are a section of their own. -/
def partFields (c : Config) : String → Option (List (String × Json))
  | "general" => some c.general.fields
  | "planner" => some c.planner.fields
  | "runner" => some c.runner.fields
  | "leak_check" => some c.leakCheck.fields
  | "profiles" => some [("profiles", .arr (c.profiles.map Profile.toJson))]
  | _ => none

/-- Some settings from a file, of one section or of all. -/
def Page.ofSettings (path : String) (part : Option String) (fields : List (String × Json)) : Page where
  text := "Configuration " ++ (match part with
      | some name => "[" ++ name ++ "] "
      | none => "") ++ "(source: " ++ path ++ ")\n\n" ++ settingsText fields
  json := .obj (("source", .str path) :: Json.fieldOf? "section" (part.map .str))

end CiPlan.Cli
