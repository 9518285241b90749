import CiPlan.Pattern.Regex
import CiPlan.Text.Blank
import CiPlan.Text.Digit

/-!
# Escapes and bracketed classes

The parts of the notation of regular expressions that stand for one character: escapes and bracketed
classes, with their ranges, named classes, nested classes and set operations.

Each reader takes the characters that follow and returns what it read and the rest; `none` means
that the text is no regular expression.  The readers that loop are bounded by the length of what
they read, since each round consumes a character.
-/

namespace CiPlan.Pattern

/-- The modes that flags set. -/
structure Flags where
  ignoreCase : Bool
  multiLine : Bool
  /-- The dot stands for every character. -/
  dotAll : Bool
  /-- A repetition is greedy when it has the mark for the opposite. -/
  swapGreed : Bool
  /-- Blanks and comments between the parts of an expression are skipped. -/
  skipBlanks : Bool
  /-- Classes hold the characters of Unicode and not only those of ASCII. -/
  unicode : Bool
  /-- A carriage return ends a line too. -/
  breaks : Bool
  deriving DecidableEq, Repr

namespace Flags

/-- The modes at the start. -/
def initial : Flags := ⟨false, false, false, false, false, true, false⟩

/-- Drops blanks and comments; `inComment` says whether a comment is open. -/
def dropIgnored (inComment : Bool) : List Char → List Char
  | [] => []
  | c :: cs =>
    if inComment then dropIgnored (c != '\n') cs
    else if c == '#' then dropIgnored true cs
    else if Text.isBlank c then dropIgnored false cs
    else c :: cs

/-- Drops what the mode lets stand between parts. -/
def skip (f : Flags) (cs : List Char) : List Char :=
  if f.skipBlanks then dropIgnored false cs else cs

/-- The word characters of the mode. -/
def word (f : Flags) : Charset :=
  if f.unicode then .word else .asciiWord

/-- A set with the other case of each member, if case is ignored. -/
def fold (f : Flags) (s : Charset) : Charset :=
  if !f.ignoreCase then s
  else if f.unicode then s.foldCase
  else s.union (s.foldCase.inter [(0, 0x7F)])

/-- The complement of a set, which is there in the mode of Unicode only. -/
def complement? (f : Flags) (s : Charset) : Option Charset :=
  if f.unicode then some s.complement else none

end Flags

/-- What one element of the notation stands for. -/
inductive Atom where
  | char (c : Char)
  | set (s : Charset)
  | look (condition : Look)

/-- The character with a code point. -/
def charOfCode? (n : Nat) : Option Char :=
  if n.isValidChar then some (Char.ofNat n) else none

/-- A number of exactly so many hexadecimal digits. -/
def readHex (f : Flags) : Nat → Nat → List Char → Option (Nat × List Char)
  | 0, value, cs => some (value, cs)
  | count + 1, value, cs =>
    match f.skip cs with
    | c :: rest => do readHex f count (16 * value + (← Text.digitValue? 16 c)) rest
    | [] => none

/-- A number of hexadecimal digits up to a closing brace; `any` says whether there was a digit. -/
def readBracedHex (f : Flags) (fuel : Nat) (any : Bool) (value : Nat) (cs : List Char) :
    Option (Nat × List Char) :=
  match fuel, f.skip cs with
  | fuel + 1, c :: rest =>
    if c == '}' then if any then some (value, rest) else none
    else do readBracedHex f fuel true (16 * value + (← Text.digitValue? 16 c)) rest
  | _, _ => none

/-- The rest of an escape that gives a code point, after its letter. -/
def readCodePoint (f : Flags) (digits : Nat) (cs : List Char) : Option (Atom × List Char) := do
  let (n, rest) ← match f.skip cs with
    | '{' :: rest => readBracedHex f (rest.length + 1) false 0 rest
    | cs => readHex f digits 0 cs
  return (.char (← charOfCode? n), rest)

/-- The set that a class letter stands for. -/
def classLetter? (f : Flags) (c : Char) : Option (Option Charset) :=
  let digit := if f.unicode then Charset.digit else .asciiDigit
  let blank := if f.unicode then Charset.blank else .asciiBlank
  if c == 'd' then some (some digit)
  else if c == 's' then some (some blank)
  else if c == 'w' then some (some f.word)
  else if c == 'D' then some (f.complement? digit)
  else if c == 'S' then some (f.complement? blank)
  else if c == 'W' then some (f.complement? f.word)
  else none

/-- A condition on words in braces, after its opening brace; `none` when the braces hold something
else, and `some none` when they are malformed. -/
def readWordCondition (f : Flags) (cs : List Char) : Option (Option (Look × List Char)) :=
  let isLetter (c : Char) : Bool := c.isAlpha || c == '-'
  match f.skip cs with
  | [] => some none
  | c :: rest =>
    if !isLetter c then none
    else
      let name := String.ofList ((c :: rest).takeWhile isLetter)
      match (c :: rest).dropWhile isLetter with
      | '}' :: rest =>
        if name = "start" then some (some (.wordStart f.word, rest))
        else if name = "end" then some (some (.wordEnd f.word, rest))
        else if name = "start-half" then some (some (.wordStartHalf f.word, rest))
        else if name = "end-half" then some (some (.wordEndHalf f.word, rest))
        else some none
      | _ => some none

/-- The control characters that have a letter. -/
def controlLetters : List (Char × Char) :=
  [('a', '\x07'), ('f', '\x0c'), ('t', '\t'), ('n', '\n'), ('r', '\r'), ('v', '\x0b')]

/-- An ASCII character that stands for itself after a backslash. -/
def isEscapable (c : Char) : Bool :=
  c.toNat < 0x80 && !c.isAlphanum && c != '<' && c != '>'

/-- An escape, after its backslash. -/
def readEscape (f : Flags) : List Char → Option (Atom × List Char)
  | [] => none
  | 'x' :: rest => readCodePoint f 2 rest
  | 'u' :: rest => readCodePoint f 4 rest
  | 'U' :: rest => readCodePoint f 8 rest
  | 'A' :: rest => some (.look .textStart, rest)
  | 'z' :: rest => some (.look .textEnd, rest)
  | 'B' :: rest => some (.look (.noBoundary f.word), rest)
  | '<' :: rest => some (.look (.wordStart f.word), rest)
  | '>' :: rest => some (.look (.wordEnd f.word), rest)
  | 'b' :: rest =>
    match rest with
    | '{' :: inner =>
      match readWordCondition f inner with
      | none => some (.look (.boundary f.word), rest)
      | some none => none
      | some (some (condition, rest)) => some (.look condition, rest)
    | _ => some (.look (.boundary f.word), rest)
  | c :: rest =>
    match classLetter? f c with
    | some set => do return (.set (← set), rest)
    | none =>
      match controlLetters.lookup c with
      | some d => some (.char d, rest)
      | none => if isEscapable c then some (.char c, rest) else none

/-- An element inside brackets. -/
def readBracketAtom (f : Flags) : List Char → Option (Atom × List Char)
  | [] => none
  | '\\' :: rest => readEscape f rest
  | c :: rest => some (.char c, rest)

/-- The set of an element, which no condition on a place has. -/
def Atom.set? (f : Flags) : Atom → Option Charset
  | .char c => if f.unicode || c.toNat < 0x80 then some (.single c) else none
  | .set s => some s
  | .look _ => none

/-- An element inside brackets or a range of two. -/
def readBracketRange (f : Flags) (cs : List Char) : Option (Charset × List Char) := do
  let (first, rest) ← readBracketAtom f cs
  match f.skip rest with
  | [] => none
  | '-' :: rest =>
    match f.skip rest with
    | [] => none
    | ']' :: _ | '-' :: _ => return (← first.set? f, '-' :: rest)
    | cs =>
      let (last, rest) ← readBracketAtom f cs
      match first, last with
      | .char a, .char b =>
        if a ≤ b ∧ (f.unicode ∨ b.toNat < 0x80) then some ([(a.toNat, b.toNat)], rest) else none
      | _, _ => none
  | rest => return (← first.set? f, rest)

/-- A named class, after its opening bracket. -/
def readNamedClass? (f : Flags) : List Char → Option (Charset × List Char)
  | ':' :: rest =>
    let (negated, rest) := match rest with
      | '^' :: rest => (true, rest)
      | rest => (false, rest)
    match rest.dropWhile (· != ':') with
    | ':' :: ']' :: after => do
      let set ← Charset.named.lookup (String.ofList (rest.takeWhile (· != ':')))
      let set := f.fold set
      return (if negated then set.complement else set, after)
    | _ => none
  | _ => none

/-- A set operation between parts of a bracketed class. -/
inductive SetOp where
  | inter
  | diff
  | symmDiff

/-- The result of a set operation. -/
def SetOp.apply : SetOp → Charset → Charset → Charset
  | inter => Charset.inter
  | diff => Charset.diff
  | symmDiff => Charset.symmDiff

/-- A bracketed class that is not closed yet. -/
structure OpenClass where
  negated : Bool
  /-- The part before the last set operation. -/
  left : Option (SetOp × Charset)
  /-- The elements after it. -/
  elements : Charset

namespace OpenClass

def add (o : OpenClass) (s : Charset) : OpenClass :=
  { o with elements := o.elements.union s }

/-- The set so far; the set operations apply from left to right. -/
def value (f : Flags) (o : OpenClass) : Charset :=
  match o.left with
  | none => o.elements
  | some (op, left) => op.apply (f.fold left) (f.fold o.elements)

/-- Goes on after a set operation. -/
def operate (f : Flags) (o : OpenClass) (op : SetOp) : OpenClass :=
  { o with left := some (op, o.value f), elements := [] }

/-- The set of the closed class. -/
def close? (f : Flags) (o : OpenClass) : Option Charset :=
  let set := f.fold (o.value f)
  if o.negated then f.complement? set else some set

end OpenClass

/-- Drops the dashes at the start of a class, which stand for themselves. -/
def dropDashes (f : Flags) (fuel : Nat) (any : Bool) (cs : List Char) : Bool × List Char :=
  match fuel, cs with
  | fuel + 1, '-' :: rest => dropDashes f fuel true (f.skip rest)
  | _, cs => (any, cs)

/-- The start of a class, after its opening bracket.  A closing bracket that comes first stands for
itself. -/
def readOpening (f : Flags) (cs : List Char) : OpenClass × List Char :=
  let (negated, cs) := match f.skip cs with
    | '^' :: rest => (true, f.skip rest)
    | cs => (false, cs)
  let (dashes, cs) := dropDashes f cs.length false cs
  if dashes then (⟨negated, none, .single '-'⟩, cs)
  else match cs with
    | ']' :: rest => (⟨negated, none, .single ']'⟩, rest)
    | cs => (⟨negated, none, []⟩, cs)

/-- The deepest nesting of expressions and classes. -/
def nestLimit : Nat := 250

/-- Reads on inside the class `top`, which stands inside those of `outer`. -/
def readClass (f : Flags) (fuel : Nat) (top : OpenClass) (outer : List OpenClass)
    (cs : List Char) : Option (Charset × List Char) :=
  match fuel, f.skip cs with
  | 0, _ | _, [] => none
  | fuel + 1, '[' :: rest =>
    match readNamedClass? f rest with
    | some (set, rest) => readClass f fuel (top.add set) outer rest
    | none =>
      if outer.length + 1 < nestLimit then
        let (inner, rest) := readOpening f rest
        readClass f fuel inner (top :: outer) rest
      else none
  | fuel + 1, ']' :: rest => do
    let set ← top.close? f
    match outer with
    | [] => some (set, rest)
    | next :: outer => readClass f fuel (next.add set) outer rest
  | fuel + 1, '&' :: '&' :: rest => readClass f fuel (top.operate f .inter) outer rest
  | fuel + 1, '-' :: '-' :: rest => readClass f fuel (top.operate f .diff) outer rest
  | fuel + 1, '~' :: '~' :: rest => readClass f fuel (top.operate f .symmDiff) outer rest
  | fuel + 1, cs => do
    let (set, rest) ← readBracketRange f cs
    readClass f fuel (top.add set) outer rest

/-- A bracketed class, after its opening bracket. -/
def readBracketed (f : Flags) (cs : List Char) : Option (Charset × List Char) :=
  let (top, rest) := readOpening f cs
  readClass f (rest.length + 1) top [] rest

end CiPlan.Pattern
