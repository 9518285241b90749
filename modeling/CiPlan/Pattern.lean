import CiPlan.Pattern.Error

/-!
# Patterns

A pattern is a regular expression ready to search with: a record of what a search for it tells of a
text.  So whoever is handed a pattern need not know how patterns are read or how texts are searched.
-/

namespace CiPlan

/-- A regular expression ready to search with. -/
structure Pattern where
  /-- The names of its groups. -/
  groups : List String
  /-- The pattern matches somewhere in a text. -/
  isMatch : String → Bool
  /-- The texts of the named groups in the best match. -/
  captures : String → Option (String → Option String)

/-- The pattern has a group of this name. -/
def Pattern.hasGroup (p : Pattern) (name : String) : Bool :=
  p.groups.contains name

end CiPlan
