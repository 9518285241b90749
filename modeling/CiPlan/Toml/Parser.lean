import CiPlan.Toml.Node
import CiPlan.Toml.Scalar

/-!
# Reading TOML

The lines of a document: headers, keys with their values, comments and blanks.  Values that hold
others may span lines.  The readers that loop are bounded by `fuel`, at first twice the length of the
text; each round takes one off it and consumes a character, so it is never the reason to stop.
-/

namespace CiPlan.Toml

/-- Drops blanks. -/
def dropBlanks (cs : List Char) : List Char :=
  cs.dropWhile fun c => c == ' ' || c == '\t'

/-- The end of a line, of which the carriage return is optional, or of the text. -/
def readLineEnd : List Char → Option (List Char)
  | [] => some []
  | '\n' :: rest => some rest
  | '\r' :: '\n' :: rest => some rest
  | _ => none

/-- Blanks and a comment, up to the end of the line; `comment` says whether one is open. -/
def readRemark (comment : Bool) : List Char → Option (List Char)
  | [] => some []
  | c :: cs =>
    if c == '\n' || c == '\r' then some (c :: cs)
    else if comment then if isControl c then none else readRemark true cs
    else if c == '#' then readRemark true cs
    else if c == ' ' || c == '\t' then readRemark false cs
    else some (c :: cs)

/-- Blanks, comments and ends of lines, as many as there are. -/
def readGap (comment : Bool) : List Char → Option (List Char)
  | [] => some []
  | c :: cs =>
    if c == '\n' then readGap false cs
    else if c == '\r' then if cs.head? == some '\n' then readGap comment cs else none
    else if comment then if isControl c then none else readGap true cs
    else if c == '#' then readGap true cs
    else if c == ' ' || c == '\t' then readGap false cs
    else some (c :: cs)

/-- One part of a key. -/
def readKeyPart (cs : List Char) : Option (String × List Char) :=
  let isBare (c : Char) : Bool := c.isAlphanum || c == '_' || c == '-'
  match cs with
  | '"' :: rest => readShort '"' [] .closed rest
  | '\'' :: rest => readShort '\'' [] .closed rest
  | cs =>
    let name := cs.takeWhile isBare
    if name.isEmpty then none else some (String.ofList name, cs.dropWhile isBare)

/-- The parts of a key, last first, and the blanks around them; `acc` holds the parts before. -/
def readKeyParts : Nat → List String → List Char → Option (List String × List Char)
  | 0, _, _ => none
  | fuel + 1, acc, cs => do
    let (part, rest) ← readKeyPart (dropBlanks cs)
    match dropBlanks rest with
    | '.' :: rest => readKeyParts fuel (part :: acc) rest
    | rest => some (part :: acc, rest)

/-- A key: the path to a table and a name in it. -/
def readKey (fuel : Nat) (cs : List Char) : Option ((List String × String) × List Char) := do
  match ← readKeyParts fuel [] cs with
  | (name :: path, rest) => some ((path.reverse, name), rest)
  | ([], _) => none

mutual

/-- A value. -/
def readValue (fuel : Nat) (cs : List Char) : Option (Toml × List Char) :=
  match fuel, cs with
  | 0, _ | _, [] => none
  | fuel + 1, c :: rest =>
    if c == '"' || c == '\'' then do
      let (s, rest) ← readQuoted c rest
      return (.str s, rest)
    else if c == '[' then readItems fuel [] rest
    else if c == '{' then readFields fuel [] rest
    else readBare (c :: rest)

/-- The elements of an array after those in `acc`, which holds the latest first. -/
def readItems (fuel : Nat) (acc : List Toml) (cs : List Char) : Option (Toml × List Char) :=
  match fuel, readGap false cs with
  | 0, _ | _, none => none
  | _, some (']' :: rest) => some (.array acc.reverse, rest)
  | fuel + 1, some cs => do
    let (v, rest) ← readValue fuel cs
    match ← readGap false rest with
    | ',' :: rest => readItems fuel (v :: acc) rest
    | ']' :: rest => some (.array (v :: acc).reverse, rest)
    | _ => none

/-- The fields of a table in one place after those in `acc`, which holds the latest first. -/
def readFields (fuel : Nat) (acc : List Assignment) (cs : List Char) :
    Option (Toml × List Char) :=
  let finish (acc : List Assignment) (rest : List Char) : Option (Toml × List Char) := do
    return (.table (← ofAssignments? acc.reverse), rest)
  match fuel, readGap false cs with
  | 0, _ | _, none => none
  | _, some ('}' :: rest) => finish acc rest
  | fuel + 1, some cs => do
    match ← readKey fuel cs with
    | ((path, name), '=' :: rest) =>
      let (v, rest) ← readValue fuel (dropBlanks rest)
      match ← readGap false rest with
      | ',' :: rest => readFields fuel (⟨path, name, v⟩ :: acc) rest
      | '}' :: rest => finish (⟨path, name, v⟩ :: acc) rest
      | _ => none
    | _ => none

end

/-- A header, after its first bracket. -/
def readHeader (fuel : Nat) : List Char → Option (Header × List Char)
  | '[' :: rest => do
    match ← readKey fuel rest with
    | ((path, name), ']' :: ']' :: rest) => some (.element path name, rest)
    | _ => none
  | rest => do
    match ← readKey fuel rest with
    | ((path, name), ']' :: rest) => some (.table path name, rest)
    | _ => none

/-- The parts of a document; `header` and `acc` are those of the part that is being read, the
assignments latest first. -/
def readParts (fuel : Nat) (header : Header) (acc : List Assignment) (cs : List Char) :
    Option (List Part) :=
  match fuel, readGap false cs with
  | 0, _ | _, none => none
  | _, some [] => some [⟨header, acc.reverse⟩]
  | fuel + 1, some ('[' :: rest) => do
    let (next, rest) ← readHeader fuel rest
    let rest ← readLineEnd (← readRemark false rest)
    return ⟨header, acc.reverse⟩ :: (← readParts fuel next [] rest)
  | fuel + 1, some cs => do
    match ← readKey fuel cs with
    | ((path, name), '=' :: rest) =>
      let rest := dropBlanks rest
      let (v, rest) ← readValue fuel rest
      let rest ← readLineEnd (← readRemark false rest)
      readParts fuel header (⟨path, name, v⟩ :: acc) rest
    | _ => none

/-- The fields of the document that a text spells.  A byte order mark at its start is skipped. -/
def parse? (text : String) : Option (List (String × Toml)) :=
  let cs := match text.toList with
    | '\uFEFF' :: rest => rest
    | cs => cs
  do ofParts? (← readParts (2 * cs.length + 2) .start [] cs)

end CiPlan.Toml
