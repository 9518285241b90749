import CiPlan.Json

/-!
# Writing JSON

The indented form of a JSON value: two spaces for each level, one field or element on a line, and
empty objects and arrays on one line.
-/

namespace CiPlan.Json

/-- A character of a quoted text. -/
def escapeChar (c : Char) : String :=
  let n := c.toNat
  let hex (d : Nat) : Char := Nat.digitChar d
  if c = '"' then "\\\""
  else if c = '\\' then "\\\\"
  else if n = 8 then "\\b"
  else if n = 9 then "\\t"
  else if n = 10 then "\\n"
  else if n = 12 then "\\f"
  else if n = 13 then "\\r"
  else if n < 32 then "\\u00" ++ String.ofList [hex (n / 16), hex (n % 16)]
  else String.ofList [c]

/-- A text in double quotes. -/
def quote (s : String) : String :=
  "\"" ++ String.join (s.toList.map escapeChar) ++ "\""

/-- A number with `scale` places after the point. -/
def decimalText (mantissa : Int) (scale : Nat) : String :=
  let digits := (toString mantissa.natAbs).toList
  let digits := List.replicate (scale + 1 - digits.length) '0' ++ digits
  let whole := String.ofList (digits.take (digits.length - scale))
  let places := String.ofList (digits.drop (digits.length - scale))
  (if mantissa < 0 then "-" else "") ++ whole ++ "." ++ (if scale = 0 then "0" else places)

/-- The lines of a bracketed list. -/
def bracketed (indent : Nat) (left right : String) (items : List String) : String :=
  if items.isEmpty then left ++ right
  else
    let pad := String.ofList (List.replicate (2 * (indent + 1)) ' ')
    left ++ "\n" ++ ",\n".intercalate (items.map (pad ++ ·)) ++ "\n" ++
      String.ofList (List.replicate (2 * indent) ' ') ++ right

mutual

/-- A value whose first line stands at a given level. -/
def pretty (indent : Nat) : Json → String
  | .null => "null"
  | .bool b => if b then "true" else "false"
  | .int n => toString n
  | .real m e => decimalText m e
  | .str s => quote s
  | .arr items => bracketed indent "[" "]" (prettyItems (indent + 1) items)
  | .obj fields => bracketed indent "\x7b" "\x7d" (prettyFields (indent + 1) fields)

/-- The elements of an array. -/
def prettyItems (indent : Nat) : List Json → List String
  | [] => []
  | j :: rest => pretty indent j :: prettyItems indent rest

/-- The fields of an object. -/
def prettyFields (indent : Nat) : List (String × Json) → List String
  | [] => []
  | (name, j) :: rest => (quote name ++ ": " ++ pretty indent j) :: prettyFields indent rest

end

end CiPlan.Json
