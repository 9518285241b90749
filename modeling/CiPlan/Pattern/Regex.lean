import CiPlan.Pattern.Charset

/-!
# Regular expressions

The tree of a regular expression.  Preferences are part of its meaning: of two alternatives the left
one is tried first, and a repetition tries to go on or to stop first as it is greedy or not.
-/

namespace CiPlan.Pattern

/-- A condition on a place in a text. -/
inductive Look where
  | textStart
  | textEnd
  /-- At the start of the text or after a line feed. -/
  | lineStart
  /-- At the end of the text or before a line feed. -/
  | lineEnd
  /-- As `lineStart`, with carriage returns ending lines too. -/
  | breakStart
  /-- As `lineEnd`, with carriage returns ending lines too. -/
  | breakEnd
  /-- Between a word character and none, where the class decides what a word character is. -/
  | boundary (word : Charset)
  | noBoundary (word : Charset)
  /-- A word starts here. -/
  | wordStart (word : Charset)
  /-- A word ends here. -/
  | wordEnd (word : Charset)
  /-- No word character stands before. -/
  | wordStartHalf (word : Charset)
  /-- No word character stands after. -/
  | wordEndHalf (word : Charset)
  deriving DecidableEq, Repr

/-- The condition holds between two characters, of which the first is missing at the start of the
text and the second at its end. -/
def Look.holds (before after : Option Char) : Look → Bool
  | textStart => before.isNone
  | textEnd => after.isNone
  | lineStart => before.all (· == '\n')
  | lineEnd => after.all (· == '\n')
  | breakStart =>
    before.all fun b => b == '\n' || (b == '\r' && after != some '\n')
  | breakEnd =>
    after.all fun a => a == '\r' || (a == '\n' && before != some '\r')
  | boundary word => before.any word.has != after.any word.has
  | noBoundary word => before.any word.has == after.any word.has
  | wordStart word => !before.any word.has && after.any word.has
  | wordEnd word => before.any word.has && !after.any word.has
  | wordStartHalf word => !before.any word.has
  | wordEndHalf word => !after.any word.has

/-- A regular expression. -/
inductive Regex where
  | empty
  /-- One character of a set. -/
  | chars (set : Charset)
  | look (condition : Look)
  | seq (first second : Regex)
  | alt (first second : Regex)
  /-- At least `least` and at most `most` times. -/
  | rep (body : Regex) (least : Nat) (most : Option Nat) (greedy : Bool)
  /-- A group whose text is kept. -/
  | group (index : Nat) (name : Option String) (body : Regex)
  deriving Repr

namespace Regex

/-- The expression can match the empty text, as far as lengths tell. -/
def emptiable : Regex → Bool
  | empty | look _ => true
  | chars set => set.isEmpty
  | seq r s => r.emptiable && s.emptiable
  | alt r s => r.emptiable || s.emptiable
  | rep r least _ _ => least = 0 || r.emptiable
  | group _ _ r => r.emptiable

/-- The named groups, each with its index. -/
def groups : Regex → List (String × Nat)
  | empty | look _ | chars _ => []
  | seq r s | alt r s => r.groups ++ s.groups
  | rep r _ _ _ => r.groups
  | group index name r => (match name with | some n => [(n, index)] | none => []) ++ r.groups

/-- Nothing but the empty text can match. -/
def alwaysEmpty : Regex → Bool
  | empty | look _ => true
  | chars _ => false
  | seq r s | alt r s => r.alwaysEmpty && s.alwaysEmpty
  | rep r _ _ _ => r.alwaysEmpty
  | group _ _ r => r.alwaysEmpty

/-- A repetition.  Repeating what is always empty more than once adds nothing, and no repetition at
all is the empty expression. -/
def repeated (r : Regex) (least : Nat) (most : Option Nat) (greedy : Bool) : Regex :=
  let (least, most) :=
    if r.alwaysEmpty then (min least 1, some (min (most.getD 1) 1)) else (least, most)
  match least, most with
  | 0, some 0 => empty
  | 1, some 1 => r
  | _, _ => rep r least most greedy

/-- One expression after the other. -/
def concat : List Regex → Regex
  | [] => empty
  | [r] => r
  | r :: rest => seq r (concat rest)

/-- The first expression that matches. -/
def choose : List Regex → Regex
  | [] => empty
  | [r] => r
  | r :: rest => alt r (choose rest)

end Regex

end CiPlan.Pattern
