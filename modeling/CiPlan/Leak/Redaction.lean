import CiPlan.Profile

/-!
# Masking secrets in texts

The texts of a profile's secret variables are masked wherever they occur in what a process wrote.
Short texts are left alone, since masking them would shred the output.
-/

namespace CiPlan

/-- The fewest bytes that a masked text has. -/
def minSecretLength : Nat := 4

/-- Longer texts come first, so that one inside another is masked with it; texts of equal length are
in code point order. -/
def longerFirst (s t : String) : Bool :=
  t.utf8ByteSize < s.utf8ByteSize || (t.utf8ByteSize == s.utf8ByteSize && decide (s ≤ t))

/-- Keeps the first of each run of equal texts. -/
def dropRepeats : List String → List String
  | s :: t :: rest => if s == t then dropRepeats (t :: rest) else s :: dropRepeats (t :: rest)
  | rest => rest

/-- The secret texts that a process under the profile may see: those of the secret variables that
the environment sets, and those that the profile itself sets. -/
def Profile.secretValues (env : Environment) (p : Profile) : List String :=
  let handedOn := p.secretEnv.filterMap env
  let own := (p.env.entries.filter fun e => p.hides e.1).map (·.2)
  let values := (handedOn ++ own).filter fun v => minSecretLength ≤ v.utf8ByteSize
  dropRepeats (values.mergeSort longerFirst)

/-- Masks every occurrence of some secrets, one secret after the other. -/
def redactValues (secrets : List String) (text : String) : String :=
  secrets.foldl (fun text secret => Text.replaceAll secret Profile.mask text) text

/-- Masks the secret texts of a profile. -/
def Profile.redactText (env : Environment) (p : Profile) (text : String) : String :=
  redactValues (p.secretValues env) text

end CiPlan
