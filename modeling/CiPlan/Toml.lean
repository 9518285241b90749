import CiPlan.Json

/-!
# TOML values

The values of the TOML configuration format.  A table keeps its fields in the order in which they
are written.
-/

namespace CiPlan

/-- A TOML value. -/
inductive Toml where
  | str (s : String)
  | int (n : Int)
  /-- A number with a fraction or an exponent, or one that is not finite, as written. -/
  | float (text : String)
  | bool (b : Bool)
  /-- A date, a time or both, as written. -/
  | moment (text : String)
  | array (items : List Toml)
  | table (fields : List (String × Toml))

namespace Toml

mutual

/-- The value as the reading of records takes it.  A number that is not whole and a date only count
as of some other type. -/
def toJson : Toml → Json
  | .str s => .str s
  | .int n => .int n
  | .float _ => .real 0 1
  | .bool b => .bool b
  | .moment text => .obj [("moment", .str text)]
  | .array items => .arr (listToJson items)
  | .table fields => .obj (fieldsToJson fields)

/-- The elements of an array. -/
def listToJson : List Toml → List Json
  | [] => []
  | v :: rest => v.toJson :: listToJson rest

/-- The fields of a table. -/
def fieldsToJson : List (String × Toml) → List (String × Json)
  | [] => []
  | (name, v) :: rest => (name, v.toJson) :: fieldsToJson rest

end

end Toml

end CiPlan
