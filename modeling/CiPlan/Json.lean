/-!
# JSON values and the reading of records

The data model of JSON, with whole numbers kept apart from other numbers, and the rules by which the
library's types are read from it:

* a record is read from an object by field name, where unknown fields are ignored and a known one
  may not occur twice, or from an array by position;
* nothing is converted: a number is no text, a text is no number, and `1.0` is no whole number;
* `null` stands only for an optional value that is absent.
-/

namespace CiPlan

/-- A JSON value. -/
inductive Json where
  | null
  | bool (b : Bool)
  /-- A number written without fraction and exponent. -/
  | int (n : Int)
  /-- Any other number, `mantissa / 10 ^ scale`. -/
  | real (mantissa : Int) (scale : Nat)
  | str (s : String)
  | arr (items : List Json)
  /-- The fields in the order in which they are written. -/
  | obj (fields : List (String × Json))
  deriving Inhabited

namespace Json

/-- A natural number. -/
def nat (n : Nat) : Json := .int n

/-- A 64-bit count. -/
def u64 (n : UInt64) : Json := .nat n.toNat

/-- A list of texts. -/
def strs (xs : List String) : Json := .arr (xs.map .str)

/-- A field that is left out when its value is absent. -/
def fieldOf? (name : String) (value : Option Json) : List (String × Json) :=
  match value with
  | some v => [(name, v)]
  | none => []

section Reading

/-- The text that a value is. -/
def str? : Json → Option String
  | .str s => some s
  | _ => none

/-- The truth value that a value is. -/
def bool? : Json → Option Bool
  | .bool b => some b
  | _ => none

/-- The whole number from 0 to 2^64 - 1 that a value is. -/
def u64? : Json → Option UInt64
  | .int n => if h : n.toNat < UInt64.size ∧ 0 ≤ n then some (UInt64.ofNatLT n.toNat h.1) else none
  | _ => none

/-- The whole number from -2^31 to 2^31 - 1 that a value is. -/
def i32? : Json → Option Int32
  | .int n =>
    if Int32.minValue.toInt ≤ n ∧ n ≤ Int32.maxValue.toInt then some (Int32.ofInt n) else none
  | _ => none

/-- An optional value, absent as `null`. -/
def optional? {α : Type} (read : Json → Option α) : Json → Option (Option α)
  | .null => some none
  | j => (read j).map some

/-- A list, each element of which is read. -/
def list? {α : Type} (read : Json → Option α) : Json → Option (List α)
  | .arr items => items.mapM read
  | _ => none

/-- The value among named alternatives, written as its name or as an object that gives the name a
`null`. -/
def choice? {α : Type} (alternatives : List (String × α)) : Json → Option α
  | .str s => alternatives.lookup s
  | .obj [(s, .null)] => alternatives.lookup s
  | _ => none

/-- How to find the fields of a record. -/
abbrev Fields := String → Option Json

/-- The fields with the given names that a value has. -/
def fields? (names : List String) : Json → Option Fields
  | .obj fields =>
    if names.all fun n => (fields.filter (·.1 == n)).length ≤ 1 then some fun n => fields.lookup n
    else none
  | .arr items =>
    if items.length ≤ names.length then some fun n => (names.zip items).lookup n else none
  | _ => none

/-- A field that must be there. -/
def Fields.required {α : Type} (fields : Fields) (name : String) (read : Json → Option α) :
    Option α :=
  (fields name).bind read

/-- A field that has a default. -/
def Fields.withDefault {α : Type} (fields : Fields) (name : String) (default : α)
    (read : Json → Option α) : Option α :=
  match fields name with
  | none => some default
  | some j => read j

end Reading

end Json

end CiPlan
