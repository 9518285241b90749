import CiPlan.Text.Digit

/-!
# YAML values

The values of the part of YAML that matrices and corpora are written in, and how they are read as
texts, numbers, lists and records.  A scalar is kept as its text; whether it was quoted decides
whether it can stand for a number or for nothing.
-/

namespace CiPlan

/-- A YAML value. -/
inductive Yaml where
  /-- A text, and whether it is written without quotes. -/
  | scalar (text : String) (plain : Bool)
  | seq (items : List Yaml)
  /-- Keys, which are scalars, with their values. -/
  | map (fields : List (String × Yaml))

namespace Yaml

/-- What stands where nothing is written. -/
def nothing : Yaml := .scalar "" true

/-- The text of any scalar. -/
def text? : Yaml → Option String
  | .scalar text _ => some text
  | _ => none

/-- The plain scalars that stand for an absent value. -/
def absentTexts : List String := ["", "~", "null", "Null", "NULL"]

/-- An optional value. -/
def optional? {α : Type} (read : Yaml → Option α) (v : Yaml) : Option (Option α) :=
  match v with
  | .scalar text true => if absentTexts.contains text then some none else (read v).map some
  | v => (read v).map some

/-- A list; one that is not written at all is empty. -/
def list? {α : Type} (read : Yaml → Option α) : Yaml → Option (List α)
  | .seq items => items.mapM read
  | .scalar "" true => some []
  | _ => none

/-- The number that digits of a base write. -/
def number? (base : Nat) (cs : List Char) : Option Nat :=
  if cs.isEmpty then none
  else (cs.mapM (Text.digitValue? base)).map fun ds => ds.foldl (fun n d => base * n + d) 0

/-- A 64-bit count: without quotes, with or without a plus, and decimal without zeros in front or
with the mark of another base. -/
def u64? : Yaml → Option UInt64
  | .scalar text true =>
    let cs := match text.toList with
      | '+' :: cs => cs
      | cs => cs
    let n? := match cs with
      | '0' :: 'x' :: digits => number? 16 digits
      | '0' :: 'o' :: digits => number? 8 digits
      | '0' :: 'b' :: digits => number? 2 digits
      | '0' :: _ :: _ => none
      | digits => number? 10 digits
    n?.bind fun n => if h : n < UInt64.size then some (UInt64.ofNatLT n h) else none
  | _ => none

/-- How to find the fields of a record. -/
abbrev Fields := String → Option Yaml

/-- The fields with the given names that a value has; none of them may occur twice, and there may be
others only if `others` says so. -/
def fields? (names : List String) (others : Bool) : Yaml → Option Fields
  | .map fields =>
    if (names.all fun n => (fields.filter (·.1 == n)).length ≤ 1) &&
        (others || fields.all fun f => names.contains f.1) then
      some fun n => fields.lookup n
    else none
  | _ => none

/-- A field that must be there. -/
def Fields.required {α : Type} (fields : Fields) (name : String) (read : Yaml → Option α) :
    Option α :=
  (fields name).bind read

/-- A field that has a default. -/
def Fields.withDefault {α : Type} (fields : Fields) (name : String) (default : α)
    (read : Yaml → Option α) : Option α :=
  match fields name with
  | none => some default
  | some v => read v

end Yaml

end CiPlan
