import CiPlan.Config.Environment
import CiPlan.Config.Validate
import CiPlan.Formats
import CiPlan.Toml.Printer

/-!
# Configuration files

A configuration is kept in a TOML file.  Loading reads the text, checks what it says, applies the
environment, and checks the result.
-/

namespace CiPlan

/-- Booleans, whole numbers, texts, arrays and objects as TOML values. -/
def Toml.ofJson : Json → Toml
  | .bool b => .bool b
  | .int n => .int n
  | .str s => .str s
  | .arr items => .array (ofItems items)
  | .obj fields => .table (ofFields fields)
  | .null | .real .. => .table []
where
  /-- The elements of an array. -/
  ofItems : List Json → List Toml
    | [] => []
    | j :: rest => ofJson j :: ofItems rest
  /-- The fields of an object. -/
  ofFields : List (String × Json) → List (String × Toml)
    | [] => []
    | (name, j) :: rest => (name, ofJson j) :: ofFields rest

namespace Config

/-- The configuration that a text spells. -/
def parse [Formats] (text : String) : Except ConfigError Config :=
  match Formats.toml text with
  | none => .error (.parseFailed .malformed)
  | some fields =>
    match ofJson? (Toml.table fields).toJson with
    | none => .error (.parseFailed .mistyped)
    | some c => .ok c

/-- Some settings as a document. -/
def document (fields : List (String × Json)) : Except Toml.WriteError String :=
  Toml.document (Toml.ofJson.ofFields fields)

/-- The text of a configuration. -/
def print (c : Config) : Except Toml.WriteError String :=
  document c.fields

/-- The configuration of a file that is read under an environment. -/
def load [Formats] (env : Environment) (text : String) : Except ConfigError Config := do
  let c ← parse text
  c.validate
  let c := c.override env
  c.validate
  return c

end Config

end CiPlan
