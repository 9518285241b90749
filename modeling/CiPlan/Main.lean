import CiPlan.Cli.Batch

/-!
# The programs

The thin layer between the machine and the library: it reads the files and the environment, hands them
over as a `World`, and writes what comes back.  Under the name `testgate-runner` the program is the
batch program, and under any other name it is the one with subcommands.

No process is started from here.  A command that needs one reports that it could not be started.
-/

namespace CiPlan.Cli

/-- What reading a file gives. -/
def readFile (path : String) : IO (Except IoError FileContent) := do
  try
    let bytes ← IO.FS.readBinFile path
    return .ok ⟨bytes.size, match String.fromUTF8? bytes with
      | some text => .ok text
      | none => .error .invalidText⟩
  catch
    | .noFileOrDirectory .. => return .error .notFound
    | e => return .error (.other (toString e))

/-- The variables of the process, as the system lists them. -/
def readEnvironment : IO Environment := do
  let listing ← try IO.FS.readBinFile "/proc/self/environ" catch _ => pure .empty
  let table := ((Text.decodeLossy listing.toList).splitOn "\x00").filterMap fun entry =>
    match entry.splitOn "=" with
    | name :: text@(_ :: _) => some (name, "=".intercalate text)
    | _ => none
  return fun name => table.lookup name

/-- The name of a run: a random number in the usual grouping of its digits. -/
def newRunId : IO String := do
  let bytes ← IO.getRandomBytes 16
  let digits := bytes.toList.flatMap fun b => [b.toNat / 16, b.toNat % 16].map Nat.digitChar
  let digits := (digits.set 12 '4').set 16 'a'
  let parts := [digits.take 8, (digits.drop 8).take 4, (digits.drop 12).take 4,
    (digits.drop 16).take 4, digits.drop 20]
  return "-".intercalate (parts.map String.ofList)

/-- The world with the files that a configuration needs. -/
def openWorld (configPath : String) : IO World := do
  let env ← readEnvironment
  let style := Style.ofRunId (← newRunId)
  let launch : Launcher := fun _ _ _ =>
    .error (.spawn (.other "this program does not start processes"))
  let worldOf (table : List (String × Except IoError FileContent)) : World :=
    ⟨fun path => (table.lookup path).getD (.error .notFound), env, launch, style⟩
  let first := [(configPath, ← readFile configPath)]
  match (worldOf first).loadConfig configPath with
  | .error _ => return worldOf first
  | .ok c =>
    let others ← [c.planner.matrixPath, c.planner.corpusPath].mapM fun path => do
      return (path, ← readFile path)
    return worldOf (first ++ others)

/-- Ends a program that was not asked to do its work. -/
def stopWith (program usage : String) (stop : Stop) : IO UInt32 := do
  match stop with
  | .help => IO.println ("usage: " ++ program ++ " " ++ usage)
  | .version => IO.println program
  | .misuse => IO.eprintln "error: the command line is not understood (try --help)"
  return UInt32.ofNat stop.exitCode

/-- The batch program. -/
def batchMain (words : List String) : IO UInt32 := do
  match Batch.Invocation.parse words with
  | .error stop =>
    stopWith "testgate-runner" "--trigger EVENT [--config FILE] [--log-level LEVEL]
      [--log-format FORMAT] [--dry-run]" stop
  | .ok i =>
    let r := i.execute (← openWorld i.configPath)
    IO.print r.stdout
    IO.eprint r.stderr
    return UInt32.ofNat r.exitCode

/-- The program with subcommands. -/
def commandMain (words : List String) : IO UInt32 := do
  match Invocation.parse words with
  | .error stop =>
    stopWith "testgate" "[--config FILE] [--output text|json]
      plan | verify | select | leak-check | run | config [OPTIONS]" stop
  | .ok i =>
    let r := i.execute (← openWorld i.configPath)
    IO.print (r.stdout i.format)
    match r.error with
    | some e => IO.eprintln ("error: " ++ e.message)
    | none => pure ()
    return UInt32.ofNat r.exitCode

end CiPlan.Cli

/-- Runs the program that the executable is named for. -/
def main (words : List String) : IO UInt32 := do
  if (← IO.appPath).fileName == some "testgate-runner" then CiPlan.Cli.batchMain words
  else CiPlan.Cli.commandMain words
