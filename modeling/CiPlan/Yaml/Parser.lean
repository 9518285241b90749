import CiPlan.Yaml
import CiPlan.Yaml.Scalar

/-!
# Reading YAML

Flow collections are written with brackets and may be laid out freely.  Block collections are laid
out by columns: the entries of one stand in one column, and what belongs to an entry stands further
right.  The entries of a list that is the value of a key may also stand in the column of the key.

A key and its colon stand on one line.  Anchors, tags, directives and block scalars are not part of
the notation read here.

The readers that loop are bounded by `fuel`, at first twice the length of the text; of any two rounds
one consumes a character, so it is never the reason to stop.
-/

namespace CiPlan.Yaml

/-- A scalar, at whose first character the place is. -/
def readScalar (flow : Bool) (indent : Nat) (p : Place) : Option (Yaml × Place) :=
  match p.rest with
  | '\'' :: cs => do
    let (text, p) ← readSingle [] .empty p.line (p.col + 1) cs
    return (.scalar text false, p)
  | '"' :: cs => do
    let (text, p) ← readDouble [] .empty .closed p.line (p.col + 1) cs
    return (.scalar text false, p)
  | cs =>
    if startsPlain flow cs then do
      let (text, p) ← readPlain flow indent [] .empty p.line p.col cs
      return (.scalar text true, p)
    else none

/-- The most characters that a key takes, up to its colon. -/
def keyLimit : Nat := 1024

/-- What was read from `start` to `stop` is a key: a colon follows on the same line. -/
def isKey (start stop : Place) : Bool :=
  stop.line == start.line && stop.col - start.col ≤ keyLimit && stop.rest.head? == some ':'

mutual

/-- A value inside a flow collection. -/
def readFlow (fuel : Nat) (p : Place) : Option (Yaml × Place) :=
  match fuel, p.rest with
  | fuel + 1, '[' :: _ => readFlowItems fuel [] (p.next.afterGap true true)
  | fuel + 1, '{' :: _ => readFlowFields fuel [] (p.next.afterGap true true)
  | _ + 1, _ => readScalar true 0 p
  | 0, _ => none

/-- The value after the colon of a key in a flow collection, which may be missing. -/
def readFlowValue (fuel : Nat) (p : Place) : Option (Yaml × Place) :=
  match fuel with
  | 0 => none
  | fuel + 1 =>
    let p := p.afterGap true true
    match p.rest with
    | ',' :: _ | ']' :: _ | '}' :: _ => some (.nothing, p)
    | _ => readFlow fuel p

/-- The elements of a flow list after those in `acc`, latest first.  An element may be a single key
with its value. -/
def readFlowItems (fuel : Nat) (acc : List Yaml) (p : Place) : Option (Yaml × Place) :=
  match fuel, p.rest with
  | _ + 1, ']' :: _ => some (.seq acc.reverse, p.next)
  | fuel + 1, _ => do
    let (v, after) ← readFlow fuel p
    let after := after.afterGap true true
    let (v, after) ←
      match v with
      | .scalar key _ =>
        if isKey p after then do
          let (value, after) ← readFlowValue fuel after.next
          pure (.map [(key, value)], after.afterGap true true)
        else pure (v, after)
      | v => pure (v, after)
    match after.rest with
    | ',' :: _ => readFlowItems fuel (v :: acc) (after.next.afterGap true true)
    | ']' :: _ => some (.seq (v :: acc).reverse, after.next)
    | _ => none
  | 0, _ => none

/-- The fields of a flow record after those in `acc`, latest first. -/
def readFlowFields (fuel : Nat) (acc : List (String × Yaml)) (p : Place) : Option (Yaml × Place) :=
  match fuel, p.rest with
  | _ + 1, '}' :: _ => some (.map acc.reverse, p.next)
  | fuel + 1, _ => do
    let (v, after) ← readScalar true 0 p
    let key ← v.text?
    let after := after.afterGap true true
    let (value, after) ←
      if isKey p after then do
        let (value, after) ← readFlowValue fuel after.next
        pure (value, after.afterGap true true)
      else pure (.nothing, after)
    match after.rest with
    | ',' :: _ => readFlowFields fuel ((key, value) :: acc) (after.next.afterGap true true)
    | '}' :: _ => some (.map ((key, value) :: acc).reverse, after.next)
    | _ => none
  | 0, _ => none

end

/-- The entry of a block list starts here. -/
def isEntry (p : Place) : Bool :=
  match p.rest with
  | '-' :: cs => endsWord cs
  | _ => false

/-- The place after what follows a value in a block collection. -/
def afterValue (p : Place) : Place := p.afterGap false true

/-- A key of a block record with its colon: the key and the place after the colon. -/
def readKey (indent : Nat) (p : Place) : Option (String × Place) := do
  let (v, after) ← readScalar false indent p
  let key ← v.text?
  let after := if after.line == p.line then afterValue after else after
  if isKey p after && endsWord after.next.rest then some (key, after.next) else none

mutual

/-- A value in a block collection, whose columns are at least `indent`, and the gap after it.  Only
where `fresh` says so may a block collection start. -/
def readBlock (limit fuel : Nat) (indent : Nat) (fresh : Bool) (p : Place) : Option (Yaml × Place) :=
  match fuel with
  | 0 => none
  | fuel + 1 =>
    if isEntry p then if fresh then readEntries limit fuel p.col [] p else none
    else if fresh && (readKey indent p).isSome then readFields limit fuel p.col [] p
    else do
      let (v, after) ← match p.rest with
        | '[' :: _ | '{' :: _ => readFlow limit p
        | _ => readScalar false indent p
      return (v, afterValue after)

/-- The entries of a block list in a column after those in `acc`, latest first. -/
def readEntries (limit fuel : Nat) (col : Nat) (acc : List Yaml) (p : Place) : Option (Yaml × Place) :=
  match fuel with
  | 0 => none
  | fuel + 1 =>
    if !isDone p && p.col == col && isEntry p then do
      let q := p.next.afterGap false false
      let (v, after) ←
        if isDone q || (q.line != p.line && q.col ≤ col) then pure (.nothing, q)
        else readBlock limit fuel (col + 1) true q
      readEntries limit fuel col (v :: acc) after
    else if !isDone p && col < p.col then none
    else some (.seq acc.reverse, p)

/-- The fields of a block record in a column after those in `acc`, latest first. -/
def readFields (limit fuel : Nat) (col : Nat) (acc : List (String × Yaml)) (p : Place) :
    Option (Yaml × Place) :=
  match fuel with
  | 0 => none
  | fuel + 1 =>
    if isDone p || p.col < col then some (.map acc.reverse, p)
    else if col < p.col then none
    else do
      let (key, after) ← readKey (col + 1) p
      let q := afterValue after
      let (v, after) ←
        if isDone q then pure (.nothing, q)
        else if q.line == p.line then readBlock limit fuel (col + 1) false q
        else if q.col < col || (q.col == col && !isEntry q) then pure (.nothing, q)
        else if q.col == col then readEntries limit fuel col [] q
        else readBlock limit fuel (col + 1) true q
      readFields limit fuel col ((key, v) :: acc) after

end

/-- Turns the line ends that are no separator characters into line feeds. -/
def unifyBreaks : List Char → List Char
  | [] => []
  | '\r' :: '\n' :: cs => '\n' :: unifyBreaks cs
  | c :: cs => (if c == '\r' || c == '\u0085' then '\n' else c) :: unifyBreaks cs

/-- A character may stand in a document. -/
def isPrintable (c : Char) : Bool :=
  let n := c.toNat
  n == 0x09 || n == 0x0A || n == 0x0D || (0x20 ≤ n && n ≤ 0x7E) || n == 0x85 ||
    (0xA0 ≤ n && n ≤ 0xFFFD && n != 0xFEFF) || 0x10000 ≤ n

/-- The value of a text that holds one document, which a mark may open and a mark may close. -/
def readDocument (cs : List Char) : Option Yaml := do
  let p := Place.afterGap ⟨cs, 0, 0⟩ false false
  if p.rest.isEmpty then none
  let limit := 2 * cs.length + 2
  let (start, fresh) :=
    match isDocumentMark p, p.rest with
    | true, '-' :: _ =>
      let q := afterValue (p.skip 3)
      (q, q.line != p.line)
    | _, _ => (p, true)
  let (v, after) ←
    if isDone start then pure (nothing, start)
    else readBlock limit limit 0 fresh start
  match isDocumentMark after, after.rest with
  | _, [] => some v
  | true, '.' :: _ =>
    if ((after.skip 3).afterGap false true).rest.isEmpty then some v else none
  | _, _ => none

/-- The value that some characters spell.  A byte order mark at their start is skipped. -/
def parseChars? (cs : List Char) : Option Yaml :=
  if cs.all fun c => isPrintable c || c == '\uFEFF' then
    let cs := match cs with
      | '\uFEFF' :: cs => cs
      | cs => cs
    if cs.contains '\uFEFF' then none else readDocument (unifyBreaks cs)
  else none

/-- The value that a text spells. -/
def parse? (text : String) : Option Yaml := parseChars? text.toList

/-- A text is read through its characters.  For a text that is written out, `rfl` finds them. -/
theorem parse?_of_eq {text : String} {cs : List Char} (h : String.ofList cs = text) :
    parse? text = parseChars? cs := by
  rw [parse?, ← h, String.toList_ofList]

end CiPlan.Yaml
