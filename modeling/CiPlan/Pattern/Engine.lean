import CiPlan.Pattern
import CiPlan.Pattern.Parser
import CiPlan.Pattern.Search

/-!
# From the text of a pattern to the pattern

A search finds the leftmost match anywhere in a text, and the places where its named groups begin and
end.
-/

namespace CiPlan.Pattern

/-- The text between two kept places. -/
def between (text : List Char) (slots : Slots) (index : Nat) : Option String := do
  let first ← slots.lookup (2 * index)
  let last ← slots.lookup (2 * index + 1)
  return String.ofList ((text.drop first).take (last - first))

/-- The pattern that a program searches for, whose named groups have these indices. -/
def ofProgram (program : Program) (indices : List (String × Nat)) : Pattern where
  groups := indices.map (·.1)
  isMatch text := (search program text.toList).isSome
  captures text :=
    let chars := text.toList
    (search program chars).map fun slots name => do between chars slots (← indices.lookup name)

/-- The pattern that a text spells. -/
def parse (text : String) : Except PatternError Pattern :=
  match Regex.parse? text with
  | none => .error .malformed
  | some regex =>
    if sizeLimit < regex.cost then .error .tooLarge
    else .ok (.ofProgram (.ofRegex regex) regex.groups)

end CiPlan.Pattern
