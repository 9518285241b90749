import CiPlan.Config
import CiPlan.Process
import CiPlan.Run.OutputTail
import CiPlan.Run.Task

/-!
# Running the tests of a bucket

A bucket is run by one process of the configured test command, which is given the level, the marker
and the keyword of the bucket, and the path of the tests.  When it fails, the ends of what it wrote
are kept as the reason, with the secrets of the profile masked.
-/

namespace CiPlan

/-- The command that runs tests. -/
structure TestCommand where
  program : String
  /-- The arguments that every run has. -/
  arguments : List String
  /-- The path of the tests; none when empty. -/
  testPath : String
  deriving DecidableEq

namespace TestCommand

/-- The command with its program first. -/
def ofParts (command : List String) (testPath : String) : Except RunError TestCommand :=
  match command with
  | [] => .error .emptyCommand
  | program :: arguments => .ok ⟨program, arguments, testPath⟩

/-- The command of some settings. -/
def ofConfig (c : RunnerConfig) : Except RunError TestCommand :=
  ofParts c.command c.testPath

/-- An option for a selector.  What accepts everything needs none. -/
def selectorOption (option : String) : Option Selector → List String
  | some s => if s.isSelectAll then [] else [option, s.source]
  | none => []

/-- The arguments for a bucket. -/
def argumentsFor (c : TestCommand) (bucket : Bucket) (level : TriggerLevel) : List String :=
  c.arguments ++ ["--level", level.name] ++ selectorOption "-m" bucket.marker ++
    selectorOption "-k" bucket.keyword ++ if c.testPath.isEmpty then [] else [c.testPath]

/-- The program and the arguments for a bucket. -/
def commandLine (c : TestCommand) (bucket : Bucket) (level : TriggerLevel) : List String :=
  c.program :: c.argumentsFor bucket level

end TestCommand

/-- The last lines of a stream that are not blank, without blanks at their ends, with some secrets
masked. -/
def outputTail (secrets : List String) (stream : Bytes) : List String :=
  (OutputTail.ofStream secrets stream).lines

/-- Why a process failed: what it wrote last to one stream and to the other, or else its status. -/
def failureReason (secrets : List String) (output : ProcessOutput) : String :=
  let reason :=
    (OutputTail.ofStream secrets output.stdout).joinedWith
      (OutputTail.ofStream secrets output.stderr)
  if reason.isEmpty then output.status.display else reason

/-- The outcome that the end of a process means. -/
def ProcessOutput.outcome (secrets : List String) (output : ProcessOutput) : BucketOutcome :=
  if output.status.isSuccess then .succeeded
  else .failed output.status.code? (failureReason secrets output)

/-- Runs the tests of a bucket. -/
def TestCommand.run (c : TestCommand) (launch : Launcher) (env : Environment) : Executor :=
  fun planned level =>
    let bucket := planned.bucket
    match launch c.program (c.argumentsFor bucket level) (planned.profile.childEnvironment env) with
    | .error (.spawn reason) => ⟨.error (.spawn bucket.name reason.message), 0⟩
    | .error (.wait reason) => ⟨.error (.wait bucket.name reason.message), 0⟩
    | .ok output => ⟨.outcome (output.outcome (planned.profile.secretValues env)), output.duration⟩

end CiPlan
