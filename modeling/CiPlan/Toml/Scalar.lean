import CiPlan.Text.Digit
import CiPlan.Toml

/-!
# Numbers, dates and quoted texts of TOML

The readers of the values that hold no others.  Each takes the characters that follow and returns
what it read and the rest.
-/

namespace CiPlan.Toml

/-- Digits, single underscores between which are ignored. -/
def isGrouped (isDigit : Char → Bool) : List Char → Bool
  | [] => false
  | [c] => isDigit c
  | c :: '_' :: rest => isDigit c && isGrouped isDigit rest
  | c :: rest => isDigit c && isGrouped isDigit rest

/-- The number that grouped digits write. -/
def groupedValue (base : Nat) (cs : List Char) : Nat :=
  (cs.filterMap (Text.digitValue? base)).foldl (fun n d => base * n + d) 0

/-- Whole digits of a decimal number: grouped, and without a zero in front of others. -/
def isWhole (cs : List Char) : Bool :=
  isGrouped Char.isDigit cs && (cs.head? != some '0' || cs.length == 1)

def splitSign : List Char → Option Bool × List Char
  | '+' :: rest => (some false, rest)
  | '-' :: rest => (some true, rest)
  | cs => (none, cs)

/-- The base that the two characters after the sign of a number name. -/
def baseOfMark (c : Char) : Option Nat :=
  if c == 'x' then some 16 else if c == 'o' then some 8 else if c == 'b' then some 2 else none

/-- An integer fits into 128 bits, with a sign or without one. -/
def isStorable (n : Int) : Bool :=
  (BitVec.intMin 128).toInt ≤ n && n ≤ (BitVec.allOnes 128).toNat

/-- An integer. -/
def integer? (cs : List Char) : Option Int :=
  let value? : Option Int := match cs with
    | '0' :: mark :: digits =>
      match baseOfMark mark with
      | some base =>
        if isGrouped (fun c => (Text.digitValue? base c).isSome) digits then
          some (groupedValue base digits)
        else none
      | none => none
    | cs =>
      let (sign, digits) := splitSign cs
      if isWhole digits then
        let n : Int := groupedValue 10 digits
        some (if sign == some true then -n else n)
      else none
  value?.filter isStorable

/-- A number with a fraction or an exponent, or one that is not finite. -/
def isFloat (cs : List Char) : Bool :=
  let (_, cs) := splitSign cs
  if cs == ['i', 'n', 'f'] || cs == ['n', 'a', 'n'] then true
  else
    let mantissa := cs.takeWhile fun c => c != 'e' && c != 'E'
    let exponent := cs.dropWhile fun c => c != 'e' && c != 'E'
    let whole := mantissa.takeWhile (· != '.')
    let fraction := mantissa.dropWhile (· != '.')
    isWhole whole &&
      (fraction.isEmpty || isGrouped Char.isDigit fraction.tail) &&
      (exponent.isEmpty || isGrouped Char.isDigit (splitSign exponent.tail).2) &&
      !(fraction.isEmpty && exponent.isEmpty)

/-- The number that some digits write. -/
def number? (cs : List Char) : Option Nat :=
  if !cs.isEmpty && cs.all Char.isDigit then
    some (cs.foldl (fun n c => 10 * n + (c.toNat - '0'.toNat)) 0)
  else none

/-- How many days a month has. -/
def daysInMonth (year month : Nat) : Nat :=
  if month = 2 then if (year % 4 = 0 ∧ year % 100 ≠ 0) ∨ year % 400 = 0 then 29 else 28
  else if month ∈ [4, 6, 9, 11] then 30 else 31

def isDate : List Char → Bool
  | [y1, y2, y3, y4, '-', m1, m2, '-', d1, d2] =>
    match number? [y1, y2, y3, y4], number? [m1, m2], number? [d1, d2] with
    | some y, some m, some d => 1 ≤ m && m ≤ 12 && 1 ≤ d && d ≤ daysInMonth y m
    | _, _, _ => false
  | _ => false

/-- A time of the day, whose seconds may be missing and may have a fraction. -/
def isTime : List Char → Bool
  | h1 :: h2 :: ':' :: m1 :: m2 :: rest =>
    let clock := match number? [h1, h2], number? [m1, m2] with
      | some h, some m => h < 24 && m < 60
      | _, _ => false
    clock && match rest with
      | [] => true
      | ':' :: s1 :: s2 :: rest =>
        (number? [s1, s2]).any (· ≤ 60) && match rest with
          | [] => true
          | '.' :: digits => (number? digits).isSome
          | _ => false
      | _ => false
  | _ => false

/-- A distance from universal time. -/
def isOffset : List Char → Bool
  | ['Z'] | ['z'] => true
  | [sign, h1, h2, ':', m1, m2] =>
    (sign == '+' || sign == '-') && (number? [h1, h2]).any (· < 24) &&
      (number? [m1, m2]).any (· < 60)
  | _ => false

/-- A date, a time or both. -/
def isMoment (cs : List Char) : Bool :=
  let isMark (c : Char) : Bool := c == 'Z' || c == 'z' || c == '+' || c == '-'
  isDate cs || isTime cs ||
    (isDate (cs.take 10) && match cs.drop 10 with
      | c :: rest =>
        (c == 'T' || c == 't' || c == ' ') && (isTime rest ||
          (isTime (rest.takeWhile (!isMark ·)) && isOffset (rest.dropWhile (!isMark ·))))
      | [] => false)

/-- The value that a run of characters without quotes spells. -/
def bareValue? (cs : List Char) : Option Toml :=
  if cs == "true".toList then some (.bool true)
  else if cs == "false".toList then some (.bool false)
  else match integer? cs with
    | some n => some (.int n)
    | none =>
      if isFloat cs then some (.float (String.ofList cs))
      else if isMoment cs then some (.moment (String.ofList cs))
      else none

/-- The characters that end a value without quotes. -/
def endsBare (c : Char) : Bool :=
  c == ' ' || c == '\t' || c == '\n' || c == '\r' || c == ',' || c == ']' || c == '}' || c == '#' ||
    c == '=' || c == '[' || c == '{' || c == '"' || c == '\''

/-- A value without quotes.  A blank may stand between a date and a time. -/
def readBare (cs : List Char) : Option (Toml × List Char) :=
  let word := cs.takeWhile (!endsBare ·)
  let rest := cs.dropWhile (!endsBare ·)
  match rest with
  | ' ' :: d :: _ =>
    if isDate word && d.isDigit then do
      let time := (rest.drop 1).takeWhile (!endsBare ·)
      return (← bareValue? (word ++ ' ' :: time), (rest.drop 1).dropWhile (!endsBare ·))
    else do return (← bareValue? word, rest)
  | _ => do return (← bareValue? word, rest)

/-- Control characters do not stand in a text or comment, the tab apart. -/
def isControl (c : Char) : Bool :=
  (c.toNat < 0x20 && c != '\t') || c.toNat == 0x7F

/-- The rest of an escape that is being read. -/
inductive Escape where
  /-- None is open. -/
  | closed
  /-- The backslash was read. -/
  | opened
  /-- So many hexadecimal digits are left; the others write a value. -/
  | digits (left value : Nat)
  /-- Blanks after a backslash, which a line end must follow. -/
  | blanks
  /-- The space after a backslash at the end of a line, which is dropped. -/
  | space

/-- The characters that have an escape of one letter. -/
def letterEscapes : List (Char × Char) :=
  [('b', '\x08'), ('t', '\t'), ('n', '\n'), ('f', '\x0c'), ('r', '\r'), ('e', '\x1b'), ('"', '"'),
    ('\\', '\\')]

/-- The escapes of code points, by letter, with their numbers of digits. -/
def codeEscapes : List (Char × Nat) :=
  [('x', 2), ('u', 4), ('U', 8)]

/-- Takes one more character of an escape: what is to be read next, and the character that the
escape stands for when it is complete. -/
def Escape.take (long : Bool) (c : Char) : Escape → Option (Escape × Option Char)
  | .closed => some (.closed, some c)
  | .opened =>
    match letterEscapes.lookup c, codeEscapes.lookup c with
    | some d, _ => some (.closed, some d)
    | _, some count => some (.digits count 0, none)
    | _, _ =>
      if !long then none
      else if c == ' ' || c == '\t' || c == '\r' then some (.blanks, none)
      else if c == '\n' then some (.space, none)
      else none
  | .digits left value => do
    let value := 16 * value + (← Text.digitValue? 16 c)
    if left ≤ 1 then
      if value.isValidChar then some (.closed, some (Char.ofNat value)) else none
    else some (.digits (left - 1) value, none)
  | .blanks =>
    if c == ' ' || c == '\t' || c == '\r' then some (.blanks, none)
    else if c == '\n' then some (.space, none)
    else none
  | .space => some (.space, none)

/-- A text on one line, after its opening quote; `acc` holds what was read, latest first. -/
def readShort (quote : Char) (acc : List Char) (escape : Escape) :
    List Char → Option (String × List Char)
  | [] => none
  | c :: cs =>
    match escape with
    | .closed =>
      if c == quote then some (String.ofList acc.reverse, cs)
      else if c == '\\' && quote == '"' then readShort quote acc .opened cs
      else if isControl c then none
      else readShort quote (c :: acc) .closed cs
    | escape => do
      let (escape, c?) ← escape.take false c
      readShort quote (c?.toList ++ acc) escape cs

/-- A text of several lines, after its opening quotes.  Up to two quotes stand for themselves, also
before the three that close it; `quotes` counts those just before. -/
def readLong (quote : Char) (acc : List Char) (quotes : Nat) (escape : Escape) :
    List Char → Option (String × List Char)
  | [] => if 3 ≤ quotes then some (String.ofList (acc.drop 3).reverse, []) else none
  | c :: cs =>
    match escape with
    | .closed =>
      if c == quote then
        if quotes = 4 then some (String.ofList (acc.drop 2).reverse, cs)
        else readLong quote (c :: acc) (quotes + 1) .closed cs
      else if 3 ≤ quotes then some (String.ofList (acc.drop 3).reverse, c :: cs)
      else if c == '\\' && quote == '"' then readLong quote acc 0 .opened cs
      else if c == '\r' && cs.head? == some '\n' then readLong quote acc 0 .closed cs
      else if c == '\n' then readLong quote (c :: acc) 0 .closed cs
      else if isControl c then none
      else readLong quote (c :: acc) 0 .closed cs
    | .space =>
      if c == ' ' || c == '\t' || c == '\n' || c == '\r' then readLong quote acc 0 .space cs
      else if c == quote then readLong quote (c :: acc) 1 .closed cs
      else if c == '\\' then readLong quote acc 0 .opened cs
      else if isControl c then none
      else readLong quote (c :: acc) 0 .closed cs
    | escape => do
      let (escape, c?) ← escape.take true c
      readLong quote (c?.toList ++ acc) 0 escape cs

/-- A quoted text, after its first quote.  A line end right after the opening quotes of a long text
is not part of it. -/
def readQuoted (quote : Char) (cs : List Char) : Option (String × List Char) :=
  match cs with
  | c :: d :: rest =>
    if c == quote && d == quote then
      let rest := match rest with
        | '\n' :: rest => rest
        | '\r' :: '\n' :: rest => rest
        | rest => rest
      readLong quote [] 0 .closed rest
    else readShort quote [] .closed cs
  | cs => readShort quote [] .closed cs

end CiPlan.Toml
