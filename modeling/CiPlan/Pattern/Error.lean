/-!
# Pattern errors

Why a text is no pattern, and the wording.
-/

namespace CiPlan

/-- The most memory that the program of a pattern may take, in bytes. -/
def Pattern.sizeLimit : Nat := 10 * 1024 * 1024

/-- Why a text is no pattern. -/
inductive PatternError where
  /-- It is no regular expression. -/
  | malformed
  /-- Its program takes too much memory. -/
  | tooLarge
  /-- Something else, as the reader of patterns words it. -/
  | other (text : String)
  deriving DecidableEq, Repr

def PatternError.message : PatternError → String
  | .malformed => "regex parse error"
  | .tooLarge =>
    "Compiled regex exceeds size limit of " ++ toString Pattern.sizeLimit ++ " bytes."
  | .other text => text

end CiPlan
