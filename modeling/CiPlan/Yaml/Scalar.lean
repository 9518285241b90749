import CiPlan.Text.Digit

/-!
# YAML scalars and the gaps between them

Where the text of a document is laid out, the column of what follows matters, so reading goes on from
a `Place`: the characters that are left with their line and column.

Line ends inside a scalar are folded: a single one becomes a blank, and of several the first is
dropped.  The two separator characters of Unicode also end lines, but are kept.
-/

namespace CiPlan.Yaml

/-- The characters that are left, and the line and column of the first. -/
structure Place where
  rest : List Char
  line : Nat
  col : Nat

namespace Place

def next (p : Place) : Place :=
  match p.rest with
  | [] => p
  | _ :: rest => ⟨rest, p.line, p.col + 1⟩

def skip (p : Place) (n : Nat) : Place :=
  ⟨p.rest.drop n, p.line, p.col + n⟩

end Place

/-- A blank inside a line. -/
def isBlank (c : Char) : Bool := c == ' ' || c == '\t'

/-- A character that ends a line.  The other line ends are turned into line feeds beforehand. -/
def isBreak (c : Char) : Bool := c == '\n' || c == '\u2028' || c == '\u2029'

/-- A blank, the end of a line or the end of the text comes next. -/
def endsWord : List Char → Bool
  | [] => true
  | c :: _ => isBlank c || isBreak c

/-- A mark of the start or the end of a document stands here, at the start of a line. -/
def isDocumentMark (p : Place) : Bool :=
  p.col == 0 && match p.rest with
    | '-' :: '-' :: '-' :: rest => endsWord rest
    | '.' :: '.' :: '.' :: rest => endsWord rest
    | _ => false

/-- Nothing of the document is left. -/
def isDone (p : Place) : Bool :=
  p.rest.isEmpty || isDocumentMark p

/-- Drops blanks, comments and line ends.  Tabs count as blanks in a flow collection (`flow`) and
after something on the same line (`tabs`), but do not indent. -/
def dropGap (flow tabs comment : Bool) (line col : Nat) : List Char → Place
  | [] => ⟨[], line, col⟩
  | c :: cs =>
    if isBreak c then dropGap flow flow false (line + 1) 0 cs
    else if comment then dropGap flow tabs true line (col + 1) cs
    else if c == ' ' || (c == '\t' && tabs) then dropGap flow tabs false line (col + 1) cs
    else if c == '#' then dropGap flow tabs true line (col + 1) cs
    else ⟨c :: cs, line, col⟩

/-- The place after the gap. -/
def Place.afterGap (p : Place) (flow tabs : Bool) : Place :=
  dropGap flow (flow || tabs) false p.line p.col p.rest

/-- Blanks and line ends in the middle of a scalar. -/
structure Fold where
  /-- The blanks before any line end, latest first. -/
  blanks : List Char
  /-- A line has ended. -/
  broken : Bool
  /-- The first line end, unless a backslash drops it. -/
  first : Option Char
  /-- The line ends after it, latest first. -/
  more : List Char

namespace Fold

def empty : Fold := ⟨[], false, none, []⟩

/-- A line end that a backslash drops. -/
def dropped : Fold := ⟨[], true, none, []⟩

/-- There is something to fold. -/
def isPending (f : Fold) : Bool := f.broken || !f.blanks.isEmpty

/-- A blank; those at the start of a line are dropped. -/
def addBlank (f : Fold) (c : Char) : Fold :=
  if f.broken then f else { f with blanks := c :: f.blanks }

def addBreak (f : Fold) (c : Char) : Fold :=
  if f.broken then { f with more := c :: f.more } else ⟨[], true, some c, []⟩

/-- Puts what the fold stands for before a scalar's latest characters. -/
def onto (f : Fold) (acc : List Char) : List Char :=
  if !f.broken then f.blanks ++ acc
  else match f.first with
    | none => f.more ++ acc
    | some c =>
      if c == '\n' then if f.more.isEmpty then ' ' :: acc else f.more ++ acc
      else f.more ++ c :: acc

end Fold

/-- The characters that a flow collection uses. -/
def isFlowMark (c : Char) : Bool :=
  c == ',' || c == '[' || c == ']' || c == '{' || c == '}'

/-- A scalar without quotes, which ends before a comment, before a colon that ends a word and, in a
flow collection, before its marks.  It goes on over lines whose column is at least `indent`.  `acc`
holds what was read, latest first, and `fold` the blanks after it. -/
def readPlain (flow : Bool) (indent : Nat) (acc : List Char) (fold : Fold) (line col : Nat) :
    List Char → Option (String × Place)
  | [] => some (String.ofList acc.reverse, ⟨[], line, col⟩)
  | c :: cs =>
    let stop : Option (String × Place) :=
      some (String.ofList acc.reverse, ⟨c :: cs, line, col⟩)
    if isBreak c then readPlain flow indent acc (fold.addBreak c) (line + 1) 0 cs
    else if isBlank c then
      if fold.broken && c == '\t' && col < indent then none
      else readPlain flow indent acc (fold.addBlank c) line (col + 1) cs
    else if fold.isPending &&
        ((!flow && col < indent) || isDocumentMark ⟨c :: cs, line, col⟩ || c == '#') then stop
    else if flow && c == ':' && (cs.head?.any fun d => isFlowMark d || d == '?') then none
    else if (c == ':' && endsWord cs) || (flow && isFlowMark c) then stop
    else readPlain flow indent (c :: fold.onto acc) .empty line (col + 1) cs

/-- A scalar may start here without quotes. -/
def startsPlain (flow : Bool) : List Char → Bool
  | [] => false
  | c :: cs =>
    if c == '-' then !endsWord cs
    else if c == '?' || c == ':' then !flow && !endsWord cs
    else !(isBlank c || isBreak c || isFlowMark c || c == '#' || c == '&' || c == '*' || c == '!' ||
      c == '|' || c == '>' || c == '\'' || c == '"' || c == '%' || c == '@' || c == '\x60')

/-- A scalar in single quotes, after the first; two quotes stand for one. -/
def readSingle (acc : List Char) (fold : Fold) (line col : Nat) :
    List Char → Option (String × Place)
  | [] => none
  | '\'' :: cs =>
    match cs with
    | '\'' :: rest => readSingle ('\'' :: fold.onto acc) .empty line (col + 2) rest
    | _ => some (String.ofList (fold.onto acc).reverse, ⟨cs, line, col + 1⟩)
  | c :: cs =>
    if isDocumentMark ⟨c :: cs, line, col⟩ then none
    else if isBreak c then readSingle acc (fold.addBreak c) (line + 1) 0 cs
    else if isBlank c then readSingle acc (fold.addBlank c) line (col + 1) cs
    else readSingle (c :: fold.onto acc) .empty line (col + 1) cs

/-- The characters that have an escape of one letter. -/
def letterEscapes : List (Char × Char) :=
  [('0', '\x00'), ('a', '\x07'), ('b', '\x08'), ('t', '\t'), ('\t', '\t'), ('n', '\n'),
    ('v', '\x0b'), ('f', '\x0c'), ('r', '\r'), ('e', '\x1b'), (' ', ' '), ('"', '"'), ('/', '/'),
    ('\\', '\\'), ('N', '\u0085'), ('_', '\u00a0'), ('L', '\u2028'), ('P', '\u2029')]

/-- The escapes of code points, by letter, with their numbers of digits. -/
def codeEscapes : List (Char × Nat) :=
  [('x', 2), ('u', 4), ('U', 8)]

/-- The rest of an escape that is being read. -/
inductive Escape where
  /-- None is open. -/
  | closed
  /-- The backslash was read. -/
  | opened
  /-- So many hexadecimal digits are left; the others write a value. -/
  | digits (left value : Nat)

/-- Takes one more character of an escape: what is to be read next, and the character that the
escape stands for when it is complete. -/
def Escape.take (c : Char) : Escape → Option (Escape × Option Char)
  | .closed => some (.closed, some c)
  | .opened =>
    match letterEscapes.lookup c, codeEscapes.lookup c with
    | some d, _ => some (.closed, some d)
    | _, some count => some (.digits count 0, none)
    | _, _ => none
  | .digits left value => do
    let value := 16 * value + (← Text.digitValue? 16 c)
    if left ≤ 1 then
      if value.isValidChar then some (.closed, some (Char.ofNat value)) else none
    else some (.digits (left - 1) value, none)

/-- A scalar in double quotes, after the first; a line end after a backslash is dropped. -/
def readDouble (acc : List Char) (fold : Fold) (escape : Escape) (line col : Nat) :
    List Char → Option (String × Place)
  | [] => none
  | c :: cs =>
    match escape with
    | .closed =>
      if isDocumentMark ⟨c :: cs, line, col⟩ then none
      else if isBreak c then readDouble acc (fold.addBreak c) .closed (line + 1) 0 cs
      else if isBlank c then readDouble acc (fold.addBlank c) .closed line (col + 1) cs
      else if c == '"' then some (String.ofList (fold.onto acc).reverse, ⟨cs, line, col + 1⟩)
      else if c == '\\' then readDouble (fold.onto acc) .empty .opened line (col + 1) cs
      else readDouble (c :: fold.onto acc) .empty .closed line (col + 1) cs
    | escape =>
      match escape with
      | .opened =>
        if isBreak c then readDouble acc .dropped .closed (line + 1) 0 cs
        else do
          let (escape, c?) ← Escape.opened.take c
          readDouble (c?.toList ++ acc) .empty escape line (col + 1) cs
      | escape => do
        let (escape, c?) ← escape.take c
        readDouble (c?.toList ++ acc) .empty escape line (col + 1) cs

end CiPlan.Yaml
