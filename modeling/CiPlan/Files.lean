/-!
# Files

What reading a file can give, as far as the library sees: its size and its text.
-/

namespace CiPlan

/-- Why a file cannot be read. -/
inductive IoError where
  | notFound
  | isDirectory
  | notDirectory
  /-- The bytes are no UTF-8. -/
  | invalidText
  /-- Something else, as the system words it. -/
  | other (text : String)
  deriving DecidableEq, Repr

/-- The wording of the system. -/
def IoError.message : IoError → String
  | .notFound => "No such file or directory (os error 2)"
  | .isDirectory => "Is a directory (os error 21)"
  | .notDirectory => "Not a directory (os error 20)"
  | .invalidText => "stream did not contain valid UTF-8"
  | .other text => text

/-- A file that is there. -/
structure FileContent where
  /-- The size in bytes. -/
  size : Nat
  text : Except IoError String

/-- The files, by path. -/
abbrev FileSystem := String → Except IoError FileContent

end CiPlan
