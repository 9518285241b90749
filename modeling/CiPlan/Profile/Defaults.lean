import CiPlan.Profile

/-!
# The default profiles

The profiles that the built-in matrix refers to.  Configured profiles take the place of those with
their name, and the others follow.
-/

namespace CiPlan.Profile

/-- The command that lists the clusters that are running. -/
def clusterStatus : List String := ["sky", "status", "--refresh"]

/-- The secret variables of a session that is logged in. -/
def loginSecrets : List String := ["DEN_TESTER_TOKEN", "DEN_TESTER_USERNAME"]

/-- A profile on infrastructure beyond the machine. -/
def cloud (name : String) (kind : ProfileKind) (target : String) (secrets : List String) :
    Profile :=
  { ofKind name kind with
    target, auth := .loggedIn, statusCommand := clusterStatus, secretEnv := secrets ++ loginSecrets }

/-- The profiles of the built-in matrix. -/
def defaults : List Profile :=
  [ofKind "local-logged-out" .local,
    { ofKind "local-logged-in" .local with auth := .loggedIn, secretEnv := loginSecrets },
    cloud "aws" .aws "aws-ci-account" ["AWS_ROLE_ARN"],
    cloud "aws-den" .aws "den-launcher" ["AWS_ROLE_ARN", "API_SERVER_URL"],
    cloud "gcp" .gcp "gcp-ci-project" ["GCP_SERVICE_ACCOUNT_KEY"],
    cloud "kubernetes" .kubernetes "ci-cluster" ["KUBECONFIG"]]

/-- Puts a profile in the place of the first with its name, or at the end. -/
def putByName (p : Profile) : List Profile → List Profile
  | [] => [p]
  | q :: rest => if q.name = p.name then p :: rest else q :: putByName p rest

/-- The default profiles, overridden and extended by configured ones. -/
def merge (configured : List Profile) : List Profile :=
  configured.foldl (fun merged p => putByName p merged) defaults

/-- The first profile with a name. -/
def find? (profiles : List Profile) (name : String) : Option Profile :=
  profiles.find? (·.name == name)

end CiPlan.Profile
