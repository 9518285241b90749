import CiPlan.Pattern.Engine
import CiPlan.Toml.Parser
import CiPlan.Yaml.Parser

/-!
# Formats that are defined elsewhere

Regular expressions, TOML and YAML are no matter of this library.  It is handed a reader for each of
them, and nothing of what it does depends on more than that the same text is always read in the same
way.  `Formats` packages the readers, so that what reads texts carries them along without naming
them.  The programs take those of `Formats.standard`, which read as much of each format as the files
of a project are written in.
-/

namespace CiPlan

/-- How texts in formats that are defined elsewhere are read. -/
class Formats where
  /-- The regular expression that a text spells. -/
  pattern : String → Except PatternError Pattern
  /-- The fields of the TOML document that a text spells. -/
  toml : String → Option (List (String × Toml))
  /-- The YAML document that a text spells. -/
  yaml : String → Option Yaml

/-- The readers of this library. -/
instance Formats.standard : Formats := ⟨Pattern.parse, Toml.parse?, Yaml.parse?⟩

end CiPlan
