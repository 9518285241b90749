import CiPlan.Files
import CiPlan.Profile
import CiPlan.Text.Utf8
import CiPlan.Time

/-!
# Processes

What running an external program can give.  The library never runs one itself: it is handed a
`Launcher`, which says what would happen.
-/

namespace CiPlan

/-- How a process ended. -/
inductive ExitStatus where
  | exited (code : Int32)
  | killed (signal : Nat) (coreDumped : Bool)
  deriving DecidableEq, Repr

namespace ExitStatus

/-- The names of the signals from 1 on. -/
def signalNames : List String :=
  ["HUP", "INT", "QUIT", "ILL", "TRAP", "ABRT", "BUS", "FPE", "KILL", "USR1", "SEGV", "USR2",
    "PIPE", "ALRM", "TERM", "STKFLT", "CHLD", "CONT", "STOP", "TSTP", "TTIN", "TTOU", "URG", "XCPU",
    "XFSZ", "VTALRM", "PROF", "WINCH", "IO", "PWR", "SYS"]

/-- The name of a signal in parentheses, after a blank; nothing for a signal without a name. -/
def signalNote (signal : Nat) : String :=
  if signal = 0 then ""
  else match signalNames[signal - 1]? with
    | some name => " (SIG" ++ name ++ ")"
    | none => ""

/-- A status as it is displayed. -/
def display : ExitStatus → String
  | exited code => "exit status: " ++ toString code.toInt
  | killed signal coreDumped =>
    "signal: " ++ toString signal ++ signalNote signal ++ if coreDumped then " (core dumped)" else ""

/-- The process ended as it should. -/
def isSuccess : ExitStatus → Bool
  | exited code => code == 0
  | killed .. => false

/-- The exit code; there is none when the process was killed. -/
def code? : ExitStatus → Option Int32
  | exited code => some code
  | killed .. => none

end ExitStatus

/-- A process that has ended. -/
structure ProcessOutput where
  status : ExitStatus
  stdout : Bytes
  stderr : Bytes
  /-- How long it ran. -/
  duration : Duration

/-- Why a process has no output. -/
inductive LaunchError where
  /-- It cannot be started. -/
  | spawn (reason : IoError)
  /-- Its end cannot be waited for. -/
  | wait (reason : IoError)
  deriving DecidableEq, Repr

/-- What running a program with arguments in an environment gives. -/
abbrev Launcher := (program : String) → (arguments : List String) → Environment →
  Except LaunchError ProcessOutput

/-- The environment of a process that runs under a profile.  It is handed the secret variables that
the profile names, as far as they are set; these stand before the variables of the profile, which
stand before all others. -/
def Profile.childEnvironment (env : Environment) (p : Profile) : Environment := fun name =>
  match if p.secretEnv.contains name then env name else none with
  | some text => some text
  | none => (p.env.get? name).or (env name)

end CiPlan
