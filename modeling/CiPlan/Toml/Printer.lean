import CiPlan.Text.Search
import CiPlan.Toml

/-!
# Writing TOML

The spread-out form of a document: under each table first its plain values, one on a line, and then
its tables, each under a header of its own.  An array of two or more elements takes a line for each.

A text is quoted in the first form that can hold it; `Quoting.choose` gives the order.
-/

namespace CiPlan.Toml

/-- Why a document cannot be written. -/
inductive WriteError where
  /-- An integer needs more than 64 bits with a sign. -/
  | outOfRange
  deriving DecidableEq, Repr

def WriteError.message : WriteError → String
  | .outOfRange => "out-of-range value for u64 type"

/-- The forms of a quoted text. -/
inductive Quoting where
  /-- In double quotes, as it is. -/
  | basic
  /-- In single quotes, as it is. -/
  | literal
  /-- In three double quotes, as it is. -/
  | longBasic
  /-- In three single quotes, as it is. -/
  | longLiteral
  /-- In double quotes with escapes. -/
  | escaped
  /-- In three double quotes with escapes. -/
  | longEscaped
  deriving DecidableEq, Repr

/-- A control character that no form can hold without an escape. -/
def needsEscape (c : Char) : Bool :=
  (c.toNat < 0x20 && c != '\t' && c != '\n') || c.toNat == 0x7F

/-- The length of the longest run of a character; `run` is that of the run at the start. -/
def longestRun (q : Char) (run : Nat) : List Char → Nat
  | [] => run
  | c :: cs => if c == q then longestRun q (run + 1) cs else max run (longestRun q 0 cs)

/-- The form for a text: the first that can hold it. -/
def Quoting.choose (cs : List Char) : Quoting :=
  let controls := cs.any needsEscape
  let backslash := cs.contains '\\'
  let breaks := cs.contains '\n'
  let doubles := longestRun '"' 0 cs
  let singles := longestRun '\'' 0 cs
  if !controls && !backslash && doubles == 0 && !breaks then .basic
  else if !controls && singles == 0 && !breaks then .literal
  else if !controls && !backslash && doubles ≤ 2 then .longBasic
  else if !controls && singles ≤ 2 then .longLiteral
  else if breaks then .longEscaped
  else .escaped

/-- A hexadecimal digit. -/
def hexDigit (n : Nat) : Char :=
  Text.upperAscii (Nat.digitChar (n % 16))

/-- A character among escapes; `long` says whether lines may be broken. -/
def escapeChar (long : Bool) (c : Char) : String :=
  if c == '"' then "\\\""
  else if c == '\\' then "\\\\"
  else if c == '\n' then if long then "\n" else "\\n"
  else if c == '\t' then "\\t"
  else if c == '\r' then "\\r"
  else if c == '\x08' then "\\b"
  else if c == '\x0c' then "\\f"
  else if needsEscape c then
    "\\u00" ++ String.ofList [hexDigit (c.toNat / 16), hexDigit c.toNat]
  else String.ofList [c]

def escaped (long : Bool) (s : String) : String :=
  String.join (s.toList.map (escapeChar long))

/-- A quoted text.  A text of several lines starts on a line of its own. -/
def quote (s : String) : String :=
  let first := if s.toList.contains '\n' then "\n" else ""
  match Quoting.choose s.toList with
  | .basic => "\"" ++ s ++ "\""
  | .literal => "'" ++ s ++ "'"
  | .longBasic => "\"\"\"" ++ first ++ s ++ "\"\"\""
  | .longLiteral => "'''" ++ first ++ s ++ "'''"
  | .escaped => "\"" ++ escaped false s ++ "\""
  | .longEscaped => "\"\"\"" ++ first ++ escaped true s ++ "\"\"\""

/-- A character of a key without quotes. -/
def isBareChar (c : Char) : Bool :=
  c.isAlphanum || c == '_' || c == '-'

def key (name : String) : String :=
  if name.toList.all isBareChar && !name.isEmpty then name
  else match Quoting.choose name.toList with
    | .basic | .literal => quote name
    | _ => "\"" ++ escaped false name ++ "\""

mutual

/-- A value in one place; `indent` is the number of levels of arrays around it. -/
def inline (indent : Nat) : Toml → Except WriteError String
  | .str s => .ok (quote s)
  | .int n =>
    if Int64.minValue.toInt ≤ n ∧ n ≤ Int64.maxValue.toInt then .ok (toString n)
    else .error .outOfRange
  | .float text => .ok text
  | .bool b => .ok (if b then "true" else "false")
  | .moment text => .ok text
  | .array items => do
    let texts ← inlineItems (indent + 1) items
    if texts.length ≤ 1 then return "[" ++ ", ".intercalate texts ++ "]"
    else
      let pad (n : Nat) : String := String.ofList (List.replicate (4 * n) ' ')
      return "[\n" ++ String.join (texts.map fun t => pad (indent + 1) ++ t ++ ",\n") ++
        pad indent ++ "]"
  | .table fields => do
    let texts ← inlineFields indent fields
    return if texts.isEmpty then "\x7b\x7d" else "\x7b " ++ ", ".intercalate texts ++ " \x7d"

/-- The elements of an array. -/
def inlineItems (indent : Nat) : List Toml → Except WriteError (List String)
  | [] => .ok []
  | v :: rest => do return (← inline indent v) :: (← inlineItems indent rest)

/-- The fields of a table that stands in one place. -/
def inlineFields (indent : Nat) : List (String × Toml) → Except WriteError (List String)
  | [] => .ok []
  | (name, v) :: rest => do
    return (key name ++ " = " ++ (← inline indent v)) :: (← inlineFields indent rest)

end

/-- A header and the lines under it. -/
structure Section where
  /-- The keys of the header; none for the start of the document. -/
  path : List String
  /-- The table is an element of an array. -/
  isElement : Bool
  /-- The plain values. -/
  body : String
  /-- Further tables belong to this one. -/
  hasTables : Bool

/-- A section is left out when it says nothing that the sections after it do not. -/
def Section.needed (s : Section) : Bool :=
  !s.body.isEmpty || (!s.path.isEmpty && (s.isElement || !s.hasTables))

/-- The text of a section. -/
def Section.render (s : Section) : String :=
  let path := ".".intercalate (s.path.map key)
  let header :=
    if s.path.isEmpty then "" else if s.isElement then "[[" ++ path ++ "]]\n" else "[" ++ path ++ "]\n"
  header ++ s.body

/-- A value has headers of its own: it is a table or an array of tables. -/
def isTabular : Toml → Bool
  | .table _ => true
  | .array items => !items.isEmpty && items.all fun v => match v with | .table _ => true | _ => false
  | _ => false

/-- The lines of the plain values of a table. -/
def bodyLines : List (String × Toml) → Except WriteError String
  | [] => .ok ""
  | (name, v) :: rest => do
    let line ← if isTabular v then pure "" else do pure (key name ++ " = " ++ (← inline 0 v) ++ "\n")
    return line ++ (← bodyLines rest)

mutual

/-- The sections of a value with headers of its own. -/
def sections (path : List String) (isElement : Bool) : Toml → Except WriteError (List Section)
  | .table fields => do
    let body ← bodyLines fields
    return ⟨path, isElement, body, fields.any fun f => isTabular f.2⟩ :: (← fieldSections path fields)
  | .array items => itemSections path items
  | _ => .ok []

/-- The sections of the fields of a table. -/
def fieldSections (path : List String) :
    List (String × Toml) → Except WriteError (List Section)
  | [] => .ok []
  | (name, v) :: rest => do
    let first ← if isTabular v then sections (path ++ [name]) false v else pure []
    return first ++ (← fieldSections path rest)

/-- The sections of the elements of an array of tables. -/
def itemSections (path : List String) : List Toml → Except WriteError (List Section)
  | [] => .ok []
  | v :: rest => do return (← sections path true v) ++ (← itemSections path rest)

end

/-- The text of a document with some fields. -/
def document (fields : List (String × Toml)) : Except WriteError String := do
  let all ← sections [] false (.table fields)
  return "\n".intercalate ((all.filter Section.needed).map Section.render)

end CiPlan.Toml
