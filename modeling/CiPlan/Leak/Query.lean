import CiPlan.Leak.Poll
import CiPlan.Leak.Redaction
import CiPlan.Process

/-!
# Asking by a command

The listing of a profile is what its status command writes, with the secrets of the profile masked.
-/

namespace CiPlan

/-- The most bytes of an error output that are kept. -/
def maxErrorBytes : Nat := 2048

/-- Why a status command failed: its status and the beginning of its error output. -/
def queryFailure (secrets : List String) (output : ProcessOutput) : String :=
  let words := Text.takeBytes maxErrorBytes
    (Text.trimChars (Text.decodeLossy output.stderr).toList)
  redactValues secrets (output.status.display ++ ": " ++ String.ofList words)

/-- Runs the status command of a profile. -/
def Profile.queryStatus (launch : Launcher) (env : Environment) (p : Profile) : Reply :=
  match p.statusCommand with
  | [] => ⟨.error (.noStatusCommand p.name), 0⟩
  | program :: arguments =>
    match launch program arguments (p.childEnvironment env) with
    | .error (.spawn reason) | .error (.wait reason) =>
      ⟨.error (.spawn p.name reason.message), 0⟩
    | .ok output =>
      let secrets := p.secretValues env
      if output.status.isSuccess then
        ⟨.ok (redactValues secrets (Text.decodeLossy output.stdout)), output.duration⟩
      else ⟨.error (.query p.name (queryFailure secrets output)), output.duration⟩

/-- The client that runs the status commands. -/
def StatusClient.ofLauncher (launch : Launcher) (env : Environment) : StatusClient :=
  fun _ p _ => p.queryStatus launch env

end CiPlan
