import CiPlan.Pattern.Bracket

/-!
# Reading regular expressions

The notation is read from left to right by a machine whose state holds the group that is open, what
of it is finished, and the groups around it.  Flags set inside a group hold to its end.

Classes by a property of characters, such as `\p{L}`, are not part of the notation read here.
-/

namespace CiPlan.Pattern

/-- An element of a sequence. -/
structure Piece where
  /-- The expression; a setting of flags has none and cannot be repeated. -/
  regex : Option Regex
  /-- How deeply the element is nested. -/
  depth : Nat

/-- The elements of the group that is open, latest first. -/
structure Level where
  /-- The finished alternatives. -/
  branches : List Piece
  /-- The elements of the alternative that is being read. -/
  pieces : List Piece

/-- What surrounds a group that is open. -/
structure Surround where
  /-- The index and name under which the text of the group is kept. -/
  keep : Option (Nat × Option String)
  /-- The flags outside of the group. -/
  flags : Flags
  level : Level

/-- The state of the reader. -/
structure Reader where
  flags : Flags
  level : Level
  surrounds : List Surround
  /-- The names of groups so far. -/
  names : List String
  /-- The index of the next group whose text is kept. -/
  nextIndex : Nat

/-- The greatest depth of some pieces. -/
def deepest (pieces : List Piece) : Nat :=
  pieces.foldl (fun d p => max d p.depth) 0

namespace Level

/-- The alternative that is being read, as one piece. -/
def sequence (l : Level) : Piece :=
  match l.pieces with
  | [p] => ⟨some (p.regex.getD .empty), p.depth⟩
  | pieces =>
    ⟨some (.concat (pieces.reverse.filterMap (·.regex))),
      deepest pieces + (if pieces.isEmpty then 0 else 1)⟩

/-- Everything so far, as one piece. -/
def finish (l : Level) : Piece :=
  if l.branches.isEmpty then l.sequence
  else
    let branches := l.sequence :: l.branches
    ⟨some (.choose (branches.reverse.filterMap (·.regex))), deepest branches + 1⟩

def endBranch (l : Level) : Level :=
  ⟨l.sequence :: l.branches, []⟩

end Level

/-- The bounds of a repetition. -/
structure Bounds where
  least : Nat
  most : Option Nat

/-- A number up to 2^32 - 1 with blanks around it; `some none` when there is no digit. -/
def readNumber (cs : List Char) : Option (Option Nat) × List Char :=
  let cs := cs.dropWhile Text.isBlank
  let digits := cs.takeWhile Char.isDigit
  let rest := (cs.dropWhile Char.isDigit).dropWhile Text.isBlank
  if digits.isEmpty then (some none, rest)
  else
    let n := digits.foldl (fun n d => 10 * n + (d.toNat - '0'.toNat)) 0
    (if n < UInt32.size then some (some n) else none, rest)

/-- The bounds in braces, after the opening brace. -/
def readBounds (f : Flags) (cs : List Char) : Option (Bounds × List Char) :=
  match readNumber (f.skip cs) with
  | (some (some least), '}' :: rest) => some (⟨least, some least⟩, rest)
  | (some (some least), ',' :: rest) =>
    match f.skip rest with
    | '}' :: rest => some (⟨least, none⟩, rest)
    | rest =>
      match readNumber rest with
      | (some (some most), '}' :: rest) =>
        if least ≤ most then some (⟨least, some most⟩, rest) else none
      | _ => none
  | _ => none

/-- A letter or an underscore may start the name of a group. -/
def isNameStart (c : Char) : Bool :=
  c == '_' || (Charset.word.has c && !Charset.digit.has c && c.toNat != 0x200C && c.toNat != 0x200D)

/-- A digit and some punctuation may follow. -/
def isNameChar (c : Char) : Bool :=
  isNameStart c || Charset.digit.has c || c == '.' || c == '[' || c == ']'

/-- The name of a group, up to its closing angle bracket. -/
def readName (cs : List Char) : Option (String × List Char) :=
  match cs.takeWhile (· != '>'), cs.dropWhile (· != '>') with
  | c :: name, _ :: rest =>
    if isNameStart c && name.all isNameChar then some (String.ofList (c :: name), rest) else none
  | _, _ => none

/-- Sets a flag by its letter. -/
def Flags.set? (f : Flags) (letter : Char) (value : Bool) : Option Flags :=
  if letter == 'i' then some { f with ignoreCase := value }
  else if letter == 'm' then some { f with multiLine := value }
  else if letter == 's' then some { f with dotAll := value }
  else if letter == 'U' then some { f with swapGreed := value }
  else if letter == 'x' then some { f with skipBlanks := value }
  else if letter == 'u' then some { f with unicode := value }
  else if letter == 'R' then some { f with breaks := value }
  else none

/-- Flags up to a colon or a closing parenthesis, which is returned with the number of letters.
`seen` holds the letters so far, the dash counting as one. -/
def readFlags (f : Flags) (seen : List Char) : List Char → Option (Flags × List Char × Char ×
    List Char)
  | [] => none
  | c :: rest =>
    if c == ':' || c == ')' then if seen.head? == some '-' then none else some (f, seen, c, rest)
    else if seen.contains c then none
    else if c == '-' then readFlags f (c :: seen) rest
    else do readFlags (← f.set? c (!seen.contains '-')) (c :: seen) rest

namespace Reader

/-- The state at the start. -/
def initial : Reader := ⟨.initial, ⟨[], []⟩, [], [], 1⟩

def add (r : Reader) (regex : Regex) (depth : Nat) : Reader :=
  { r with level := { r.level with pieces := ⟨some regex, depth⟩ :: r.level.pieces } }

/-- Adds what an atom stands for. -/
def addAtom (r : Reader) : Atom → Reader
  | .char c => r.add (.chars (r.flags.fold (.single c))) 0
  | .set s => r.add (.chars s) 0
  | .look condition => r.add (.look condition) 0

/-- Opens a group inside which the flags are `flags`. -/
def openWith (r : Reader) (keep : Option (Nat × Option String)) (flags : Flags) : Reader :=
  { r with flags, level := ⟨[], []⟩, surrounds := ⟨keep, r.flags, r.level⟩ :: r.surrounds }

/-- Opens a group with a name. -/
def openNamed (r : Reader) (cs : List Char) : Option (Reader × List Char) := do
  let (name, rest) ← readName cs
  if r.names.contains name then none
  let r := { r with names := name :: r.names, nextIndex := r.nextIndex + 1 }
  return (r.openWith (some (r.nextIndex - 1, some name)) r.flags, rest)

/-- Reads on after an opening parenthesis.  Conditions on the surroundings, which have the form of
groups, are not part of the notation. -/
def openGroup (r : Reader) (cs : List Char) : Option (Reader × List Char) :=
  match r.flags.skip cs with
  | '?' :: '=' :: _ | '?' :: '!' :: _ | '?' :: '<' :: '=' :: _ | '?' :: '<' :: '!' :: _ => none
  | '?' :: 'P' :: '<' :: rest => r.openNamed rest
  | '?' :: '<' :: rest => r.openNamed rest
  | '?' :: rest => do
    let (flags, seen, last, rest) ← readFlags r.flags [] rest
    if last == ':' then return (r.openWith none flags, rest)
    else if seen.isEmpty then none
    else
      let pieces := ⟨none, 0⟩ :: r.level.pieces
      return ({ r with flags, level := { r.level with pieces } }, rest)
  | cs =>
    some (({ r with nextIndex := r.nextIndex + 1 } : Reader).openWith (some (r.nextIndex, none))
      r.flags, cs)

def closeGroup (r : Reader) : Option Reader :=
  match r.surrounds with
  | [] => none
  | s :: surrounds =>
    let inner := r.level.finish
    let body := inner.regex.getD .empty
    let whole := match s.keep with
      | some (index, name) => .group index name body
      | none => body
    some (({ r with flags := s.flags, level := s.level, surrounds } : Reader).add whole
      (inner.depth + 1))

/-- Repeats the last element. -/
def repeatLast (r : Reader) (bounds : Bounds) (greedy : Bool) : Option Reader :=
  match r.level.pieces with
  | ⟨some body, depth⟩ :: pieces =>
    let whole := body.repeated bounds.least bounds.most (greedy != r.flags.swapGreed)
    some (({ r with level := { r.level with pieces } } : Reader).add whole (depth + 1))
  | _ => none

/-- Repeats the last element; a question mark that follows asks for as few as possible. -/
def repeatGreedily (r : Reader) (bounds : Bounds) (cs : List Char) :
    Option (Reader × List Char) :=
  match cs with
  | '?' :: rest => do return (← r.repeatLast bounds false, rest)
  | cs => do return (← r.repeatLast bounds true, cs)

def dot? (f : Flags) : Option Charset :=
  if !f.unicode then none
  else if f.dotAll then some .all
  else if f.breaks then some .notLineBreak
  else some .notLineFeed

/-- The condition of `^`. -/
def startCondition (f : Flags) : Look :=
  if !f.multiLine then .textStart else if f.breaks then .breakStart else .lineStart

/-- The condition of `$`. -/
def endCondition (f : Flags) : Look :=
  if !f.multiLine then .textEnd else if f.breaks then .breakEnd else .lineEnd

/-- Reads one element of the notation, which starts with `c`. -/
def step (r : Reader) (c : Char) (rest : List Char) : Option (Reader × List Char) :=
  match c with
  | '(' => r.openGroup rest
  | ')' => do return (← r.closeGroup, rest)
  | '|' => some ({ r with level := r.level.endBranch }, rest)
  | '[' => do
    let (set, rest) ← readBracketed r.flags rest
    return (r.add (.chars set) 1, rest)
  | '?' => r.repeatGreedily ⟨0, some 1⟩ rest
  | '*' => r.repeatGreedily ⟨0, none⟩ rest
  | '+' => r.repeatGreedily ⟨1, none⟩ rest
  | '{' => do
    let (bounds, rest) ← readBounds r.flags rest
    r.repeatGreedily bounds (r.flags.skip rest)
  | '\\' => do
    let (atom, rest) ← readEscape r.flags rest
    return (r.addAtom atom, rest)
  | '.' => do return (r.add (.chars (← dot? r.flags)) 0, rest)
  | '^' => some (r.add (.look (startCondition r.flags)) 0, rest)
  | '$' => some (r.add (.look (endCondition r.flags)) 0, rest)
  | c => some (r.addAtom (.char c), rest)

/-- Reads to the end, where no group may be open. -/
def run (r : Reader) (fuel : Nat) (cs : List Char) : Option Regex :=
  match fuel, r.flags.skip cs with
  | _, [] =>
    let whole := r.level.finish
    if r.surrounds.isEmpty && whole.depth ≤ nestLimit then whole.regex else none
  | 0, _ => none
  | fuel + 1, c :: rest => do
    let (r, rest) ← r.step c rest
    r.run fuel rest

end Reader

/-- The regular expression that a text spells. -/
def Regex.parse? (text : String) : Option Regex :=
  Reader.initial.run (text.toList.length + 1) text.toList

end CiPlan.Pattern
