import CiPlan.Toml

/-!
# Building TOML documents

A document says piece by piece what its tables hold.  A table may be opened by a header, implied by
the header of one below it, or implied by a dotted key, and these differ in how it may be extended:

* a header opens a table that is new, or one that only headers below it have implied;
* a dotted key extends only tables that dotted keys of the same section have made;
* a table or array that is written in one place as a value is never extended.
-/

namespace CiPlan.Toml

/-- How a table came to be. -/
inductive Origin where
  /-- A header opened it. -/
  | header
  /-- The header of a table below it implied it. -/
  | implied
  /-- A dotted key implied it. -/
  | dotted
  deriving DecidableEq, Repr

/-- What a name in a document stands for, while the document is read. -/
inductive Node where
  | value (v : Toml)
  | table (origin : Origin) (fields : List (String × Node))
  /-- An array of tables, of which the last may be extended. -/
  | tables (elements : List (List (String × Node)))

/-- The fields of a table that is being built. -/
abbrev Fields := List (String × Node)

/-- A key with its value; the key is a path whose last part names the value. -/
structure Assignment where
  path : List String
  name : String
  value : Toml

/-- What opens a part of a document. -/
inductive Header where
  /-- Nothing, at the start. -/
  | start
  | table (path : List String) (name : String)
  /-- One more element of an array of tables. -/
  | element (path : List String) (name : String)

/-- A part of a document. -/
structure Part where
  header : Header
  assignments : List Assignment

/-- The fields with another node in the place of the first of its name, or at the end. -/
def put (name : String) (node : Node) : Fields → Fields
  | [] => [(name, node)]
  | f :: rest => if f.1 == name then (name, node) :: rest else f :: put name node rest

/-- Changes the table at the end of a path, which is made where it is missing.  `change` is told how
that table came to be. -/
def descend (dotted : Bool) (change : Origin → Fields → Option Fields) :
    List String → Origin → Fields → Option Fields
  | [], origin, fields => change origin fields
  | name :: path, _, fields =>
    match fields.lookup name with
    | none => do
      let origin := if dotted then .dotted else .implied
      let inner ← descend dotted change path origin []
      return put name (.table origin inner) fields
    | some (.table origin inner) =>
      if dotted && origin == .header then none
      else do
        let inner ← descend dotted change path origin inner
        return put name (.table origin inner) fields
    | some (.tables elements) =>
      match elements.reverse with
      | [] => none
      | last :: before => do
        let last ← descend dotted change path .header last
        return put name (.tables (last :: before).reverse) fields
    | some (.value _) => none

/-- Adds the value of a key. -/
def assign (fields : Fields) (a : Assignment) : Option Fields :=
  descend true (fun origin fields =>
    if !a.path.isEmpty && origin != .dotted then none
    else if (fields.lookup a.name).isSome then none
    else some (fields ++ [(a.name, .value a.value)])) a.path .header fields

/-- Adds a part. -/
def addPart (fields : Fields) (p : Part) : Option Fields :=
  let fill (fields : Fields) : Option Fields := p.assignments.foldlM assign fields
  match p.header with
  | .start => fill fields
  | .table path name =>
    descend false (fun _ fields =>
      match fields.lookup name with
      | none => do return put name (.table .header (← fill [])) fields
      | some (.table .implied inner) => do return put name (.table .header (← fill inner)) fields
      | some _ => none) path .header fields
  | .element path name =>
    descend false (fun _ fields =>
      match fields.lookup name with
      | none => do return put name (.tables [← fill []]) fields
      | some (.tables elements) => do return put name (.tables (elements ++ [← fill []])) fields
      | some _ => none) path .header fields

mutual

/-- The value of a node. -/
def freeze : Node → Toml
  | .value v => v
  | .table _ fields => .table (freezeFields fields)
  | .tables elements => .array (freezeTables elements)

/-- The values of fields. -/
def freezeFields : List (String × Node) → List (String × Toml)
  | [] => []
  | (name, node) :: rest => (name, freeze node) :: freezeFields rest

/-- The values of the elements of an array of tables. -/
def freezeTables : List (List (String × Node)) → List Toml
  | [] => []
  | fields :: rest => .table (freezeFields fields) :: freezeTables rest

end

/-- The fields of a document. -/
def ofParts? (parts : List Part) : Option (List (String × Toml)) := do
  return freezeFields (← parts.foldlM addPart [])

/-- The fields of a table that is written in one place. -/
def ofAssignments? (assignments : List Assignment) : Option (List (String × Toml)) :=
  ofParts? [⟨.start, assignments⟩]

end CiPlan.Toml
