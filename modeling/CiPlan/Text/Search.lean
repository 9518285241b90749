/-!
# Searching and replacing in a text

Substring search, replacement of every occurrence of one text by another, and the two case foldings
that the program compares names with.
-/

namespace CiPlan.Text

/-- `needle` occurs in the text as consecutive characters. -/
def occursIn (needle : List Char) : List Char → Bool
  | [] => needle.isEmpty
  | c :: cs => needle.isPrefixOf (c :: cs) || occursIn needle cs

/-- `needle` occurs in `hay`. -/
def contains (hay needle : String) : Bool :=
  occursIn needle.toList hay.toList

/-- Replaces the occurrences of `old` from left to right, each found after the end of the one
before it.  Nothing is replaced when `old` is empty. -/
def replaceChars (old new : List Char) : List Char → List Char
  | [] => []
  | c :: cs =>
    if _h : old ≠ [] ∧ old.isPrefixOf (c :: cs) then
      new ++ replaceChars old new ((c :: cs).drop old.length)
    else c :: replaceChars old new cs
termination_by cs => cs.length
decreasing_by
  · have : 0 < old.length := List.length_pos_iff.2 _h.1
    simp only [List.length_drop, List.length_cons]
    omega
  · simp

/-- `replaceChars` on text. -/
def replaceAll (old new text : String) : String :=
  String.ofList (replaceChars old.toList new.toList text.toList)

/-- `A` to `Z` become `a` to `z`; every other character stays. -/
def lowerAscii (c : Char) : Char :=
  if 'A' ≤ c ∧ c ≤ 'Z' then Char.ofNat (c.toNat + 32) else c

/-- `a` to `z` become `A` to `Z`; every other character stays. -/
def upperAscii (c : Char) : Char :=
  if 'a' ≤ c ∧ c ≤ 'z' then Char.ofNat (c.toNat - 32) else c

/-- Two texts are equal up to the case of ASCII letters. -/
def eqIgnoringAsciiCase (s t : String) : Bool :=
  s.toList.map lowerAscii == t.toList.map lowerAscii

/-- Lower-casing as far as ASCII can see it.  Of the characters outside ASCII only the Kelvin sign
and the capital I with a dot have a lower case that holds an ASCII letter, so a search for ASCII
text cannot tell this from full Unicode lower-casing. -/
def lowerForAscii (c : Char) : List Char :=
  if c = '\u212A' then ['k']
  else if c = '\u0130' then ['i', '\u0307']
  else [lowerAscii c]

/-- `lowerForAscii` on each character of a text. -/
def lowerText (s : String) : List Char :=
  s.toList.flatMap lowerForAscii

end CiPlan.Text
