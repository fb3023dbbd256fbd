import Stagehand.Error
import Stagehand.Network.Address

/-!
# Backends

Where the cluster under test lives. A backend may belong to a cloud provider; only then can a runner
be provisioned for it, and the provider decides the region used when none is named.
-/

namespace Stagehand

/-! ## Cloud providers -/

inductive CloudProvider where
  | aws
  | gce
  | azure
  deriving DecidableEq, Repr

namespace CloudProvider

def name : CloudProvider → String
  | aws => "aws"
  | gce => "gce"
  | azure => "azure"

/-- The region used when none is named. -/
def defaultRegion : CloudProvider → String
  | aws => "eu-west-1"
  | gce => "us-east1"
  | azure => "eastus"

end CloudProvider

/-! ## Backends -/

inductive Backend where
  | aws
  | awsSiren
  | gce
  | gceSiren
  | azure
  | docker
  | baremetal
  | k8sLocalKind
  | k8sEks
  | k8sGke
  deriving DecidableEq, Repr

namespace Backend

/-- Every backend, in the order in which they are listed. -/
def all : List Backend :=
  [aws, awsSiren, gce, gceSiren, azure, docker, baremetal, k8sLocalKind, k8sEks, k8sGke]

def name : Backend → String
  | aws => "aws"
  | awsSiren => "aws-siren"
  | gce => "gce"
  | gceSiren => "gce-siren"
  | azure => "azure"
  | docker => "docker"
  | baremetal => "baremetal"
  | k8sLocalKind => "k8s-local-kind"
  | k8sEks => "k8s-eks"
  | k8sGke => "k8s-gke"

def provider? : Backend → Option CloudProvider
  | aws | awsSiren | k8sEks => some .aws
  | gce | gceSiren | k8sGke => some .gce
  | azure => some .azure
  | docker | baremetal | k8sLocalKind => none

/-- A runner can be provisioned for the backend. -/
def supportsRunner (b : Backend) : Bool := b.provider?.isSome

/-- The cluster runs on Kubernetes. -/
def isKubernetes : Backend → Bool
  | k8sLocalKind | k8sEks | k8sGke => true
  | _ => false

/-- The region used when none is named. -/
def defaultRegion (b : Backend) : String :=
  match b.provider? with
  | some p => p.defaultRegion
  | none => "local"

/-- Reads a name, in any case of its letters and with blanks around it. -/
def parse (s : String) : RunResult Backend :=
  let wanted := Text.asciiLower (Text.trim s)
  match all.find? (fun b => b.name == wanted) with
  | some b => .ok b
  | none => .error (.configuration (.unknownBackend s (all.map name)))

end Backend

end Stagehand
