import CiPlan.Bindings
import CiPlan.Text.Search

/-!
# Profiles

A profile says where and as whom the tests of a bucket run: the kind of infrastructure, whether the
session is logged in, the command that lists what is running there, and the environment of the
processes.  A profile names the secret variables that it hands on and never stores their values;
`Profile.redacted` masks those of its own variables that are secret.
-/

namespace CiPlan

/-- Whether a test session is logged in. -/
inductive AuthState where
  | loggedOut
  | loggedIn
  deriving DecidableEq, Repr

namespace AuthState

/-- Every state. -/
def every : List AuthState := [.loggedOut, .loggedIn]

/-- The name of a state in files. -/
def name : AuthState → String
  | .loggedOut => "logged_out"
  | .loggedIn => "logged_in"

/-- The name of a state as it is displayed. -/
def display : AuthState → String
  | .loggedOut => "logged-out"
  | .loggedIn => "logged-in"

def toJson (state : AuthState) : Json := .str state.name

/-- Reads the written form. -/
def ofJson? : Json → Option AuthState :=
  Json.choice? (every.map fun state => (state.name, state))

end AuthState

/-- The kind of infrastructure that tests run on. -/
inductive ProfileKind where
  /-- A cluster on the machine itself. -/
  | local
  | aws
  | gcp
  | kubernetes
  deriving DecidableEq, Repr

namespace ProfileKind

/-- Every kind. -/
def every : List ProfileKind := [.local, .aws, .gcp, .kubernetes]

/-- The name of a kind. -/
def name : ProfileKind → String
  | .local => "local"
  | .aws => "aws"
  | .gcp => "gcp"
  | .kubernetes => "kubernetes"

/-- Tests of this kind create resources beyond the machine. -/
def isCloud : ProfileKind → Bool
  | .local => false
  | _ => true

def toJson (kind : ProfileKind) : Json := .str kind.name

/-- Reads the written form. -/
def ofJson? : Json → Option ProfileKind :=
  Json.choice? (every.map fun kind => (kind.name, kind))

end ProfileKind

/-- Where and as whom the tests of a bucket run. -/
structure Profile where
  /-- The name by which buckets refer to it. -/
  name : String
  /-- An account, a cluster context or an endpoint. -/
  target : String
  kind : ProfileKind
  auth : AuthState
  /-- The command that lists what is running; none when empty. -/
  statusCommand : List String
  /-- The names of the secret variables that are handed on. -/
  secretEnv : List String
  /-- Further variables. -/
  env : Bindings
  deriving DecidableEq

namespace Profile

/-- The profile of a kind with nothing else said. -/
def ofKind (name : String) (kind : ProfileKind) : Profile :=
  ⟨name, "", kind, .loggedOut, [], [], .empty⟩

/-- What runs under the profile can be left running, and there is a command that tells. -/
def isLeakCheckTarget (p : Profile) : Bool :=
  p.kind.isCloud && !p.statusCommand.isEmpty

/-- What stands in place of a secret. -/
def mask : String := "***"

/-- The words that mark the name of a variable as that of a credential. -/
def credentialWords : List String :=
  ["TOKEN", "SECRET", "PASSWORD", "KEY", "CREDENTIAL"]

/-- The name of a variable looks like that of a credential, in any case of its ASCII letters. -/
def looksSecret (name : String) : Bool :=
  let upper := name.toList.map Text.upperAscii
  credentialWords.any fun word => Text.occursIn word.toList upper

/-- The profile keeps the text of this variable secret. -/
def hides (p : Profile) (name : String) : Bool :=
  p.secretEnv.contains name || looksSecret name

/-- The profile with its secret texts masked, for showing. -/
def redacted (p : Profile) : Profile :=
  { p with env := p.env.mapTexts fun name text => if p.hides name then mask else text }

def toJson (p : Profile) : Json :=
  .obj [("name", .str p.name), ("target", .str p.target), ("kind", p.kind.toJson),
    ("auth", p.auth.toJson), ("status_command", .strs p.statusCommand),
    ("secret_env", .strs p.secretEnv), ("env", p.env.toJson)]

/-- Reads the written form, in which only the name is needed. -/
def ofJson? (j : Json) : Option Profile := do
  let fields ← j.fields?
    ["name", "target", "kind", "auth", "status_command", "secret_env", "env"]
  let name ← fields.required "name" Json.str?
  let target ← fields.withDefault "target" "" Json.str?
  let kind ← fields.withDefault "kind" .local ProfileKind.ofJson?
  let auth ← fields.withDefault "auth" .loggedOut AuthState.ofJson?
  let statusCommand ← fields.withDefault "status_command" [] (Json.list? Json.str?)
  let secretEnv ← fields.withDefault "secret_env" [] (Json.list? Json.str?)
  let env ← fields.withDefault "env" .empty Bindings.ofJson?
  return ⟨name, target, kind, auth, statusCommand, secretEnv, env⟩

/-- Masking keeps all but the texts of variables, so the masked profile hides the same names. -/
@[simp]
theorem hides_redacted (p : Profile) : p.redacted.hides = p.hides := rfl

/-- Masking masks all that is to be masked. -/
theorem redacted_redacted (p : Profile) : p.redacted.redacted = p.redacted := by
  have h : ∀ entries : List (String × String),
      (entries.map fun e => (e.1, if p.hides e.1 then mask else e.2)).map
        (fun e => (e.1, if p.hides e.1 then mask else e.2)) =
      entries.map fun e => (e.1, if p.hides e.1 then mask else e.2) := by
    intro entries
    rw [List.map_map]
    apply List.map_congr_left
    intro e _
    by_cases he : p.hides e.1 <;> simp [he]
  cases p with
  | mk name target kind auth statusCommand secretEnv env =>
    simpa [redacted, Bindings.mapTexts, hides] using h env.entries

end Profile

end CiPlan
