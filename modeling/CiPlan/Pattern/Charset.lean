import CiPlan.Pattern.CaseFold
import CiPlan.Pattern.WordTable

/-!
# Sets of characters

A set of characters as an ascending list of disjoint ranges of code points, with the Boolean
operations of bracketed classes and the named classes.
-/

namespace CiPlan.Pattern

/-- A set of code points: ascending ranges, first and last included, that neither meet nor touch. -/
abbrev Charset := List (Nat × Nat)

namespace Charset

/-- A code point is in the set. -/
def hasCode (n : Nat) : Charset → Bool
  | [] => false
  | (lo, hi) :: rest => if n < lo then false else if n ≤ hi then true else hasCode n rest

/-- A character is in the set. -/
def has (s : Charset) (c : Char) : Bool :=
  hasCode c.toNat s

/-- Joins the ranges of an ascending list that meet or touch, where `(lo, hi)` is the range that is
still growing. -/
def joinFrom (lo hi : Nat) : List (Nat × Nat) → Charset
  | [] => [(lo, hi)]
  | (a, b) :: rest =>
    if a ≤ hi + 1 then joinFrom lo (max hi b) rest else (lo, hi) :: joinFrom a b rest

/-- Joins the ranges of an ascending list that meet or touch. -/
def join : List (Nat × Nat) → Charset
  | [] => []
  | (lo, hi) :: rest => joinFrom lo hi rest

/-- The set of the code points in some ranges, in any order. -/
def ofRanges (ranges : List (Nat × Nat)) : Charset :=
  join (ranges.mergeSort fun a b => a.1 ≤ b.1)

def single (c : Char) : Charset := [(c.toNat, c.toNat)]

/-- What is in either set. -/
def union (s t : Charset) : Charset := ofRanges (s ++ t)

def lastCode : Nat := 0x10FFFF

/-- The code points from `start` that are not in the set. -/
def gaps (start : Nat) : Charset → Charset
  | [] => if start ≤ lastCode then [(start, lastCode)] else []
  | (lo, hi) :: rest => if start < lo then (start, lo - 1) :: gaps (hi + 1) rest
    else gaps (hi + 1) rest

/-- What is not in the set. -/
def complement (s : Charset) : Charset := gaps 0 s

/-- What is in both sets. -/
def inter (s t : Charset) : Charset := complement (union (complement s) (complement t))

/-- What is in the first set only. -/
def diff (s t : Charset) : Charset := inter s (complement t)

/-- What is in exactly one of the sets. -/
def symmDiff (s t : Charset) : Charset := diff (union s t) (inter s t)

/-- With each character every other that differs only in case. -/
def foldCase (s : Charset) : Charset :=
  let folded := foldPairs.filterMap fun (n, f) => if hasCode n s then some (f, f) else none
  let s := union s folded
  union s (foldPairs.filterMap fun (n, f) => if hasCode f s then some (n, n) else none)

def digit : Charset := digitRanges

def word : Charset := wordRanges

def blank : Charset :=
  [(0x09, 0x0D), (0x20, 0x20), (0x85, 0x85), (0xA0, 0xA0), (0x1680, 0x1680), (0x2000, 0x200A),
    (0x2028, 0x2029), (0x202F, 0x202F), (0x205F, 0x205F), (0x3000, 0x3000)]

/-- Digits, blanks and word characters of ASCII. -/
def asciiDigit : Charset := [(0x30, 0x39)]

@[inherit_doc asciiDigit]
def asciiBlank : Charset := [(0x09, 0x0D), (0x20, 0x20)]

@[inherit_doc asciiDigit]
def asciiWord : Charset := [(0x30, 0x39), (0x41, 0x5A), (0x5F, 0x5F), (0x61, 0x7A)]

def all : Charset := [(0, lastCode)]

/-- Every character but the line feed. -/
def notLineFeed : Charset := complement [(0x0A, 0x0A)]

/-- Every character but the line feed and the carriage return. -/
def notLineBreak : Charset := complement [(0x0A, 0x0A), (0x0D, 0x0D)]

/-- The ASCII classes that bracketed classes name. -/
def named : List (String × Charset) :=
  [("alnum", [(0x30, 0x39), (0x41, 0x5A), (0x61, 0x7A)]),
    ("alpha", [(0x41, 0x5A), (0x61, 0x7A)]),
    ("ascii", [(0x00, 0x7F)]),
    ("blank", [(0x09, 0x09), (0x20, 0x20)]),
    ("cntrl", [(0x00, 0x1F), (0x7F, 0x7F)]),
    ("digit", [(0x30, 0x39)]),
    ("graph", [(0x21, 0x7E)]),
    ("lower", [(0x61, 0x7A)]),
    ("print", [(0x20, 0x7E)]),
    ("punct", [(0x21, 0x2F), (0x3A, 0x40), (0x5B, 0x60), (0x7B, 0x7E)]),
    ("space", asciiBlank),
    ("upper", [(0x41, 0x5A)]),
    ("word", asciiWord),
    ("xdigit", [(0x30, 0x39), (0x41, 0x46), (0x61, 0x66)])]

end Charset

end CiPlan.Pattern
