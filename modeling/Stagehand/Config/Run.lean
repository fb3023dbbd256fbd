import Stagehand.Config.Backend
import Stagehand.NameMap

/-!
# Run configurations

The resolved configuration of a branch: where its cluster lives, which build is tested, what becomes
of the nodes afterwards. `Variable` holds the names of the variables that carry parameters to and
from the environment.
-/

namespace Stagehand

/-! ## Variables -/

namespace Variable

/-- What the names of all parameter variables start with. -/
def stem : String := "SCT_"

def backend : String := "SCT_CLUSTER_BACKEND"
def region : String := "SCT_REGION_NAME"
def availabilityZone : String := "SCT_AVAILABILITY_ZONE"
def amiId : String := "SCT_AMI_ID_DB_SCYLLA"
def version : String := "SCT_SCYLLA_VERSION"
def repo : String := "SCT_SCYLLA_REPO"
def dockerImage : String := "SCT_DOCKER_IMAGE"
def postBehaviorDb : String := "SCT_POST_BEHAVIOR_DB_NODES"
def postBehaviorLoader : String := "SCT_POST_BEHAVIOR_LOADER_NODES"
def postBehaviorMonitor : String := "SCT_POST_BEHAVIOR_MONITOR_NODES"
def provisionType : String := "SCT_INSTANCE_PROVISION"
def testName : String := "SCT_TEST_NAME"
def testConfig : String := "SCT_CONFIG_FILES"
def testDuration : String := "SCT_TEST_DURATION"
def emailRecipients : String := "SCT_EMAIL_RECIPIENTS"

def testId : String := "SCT_TEST_ID"

/-- The variable that carries a branch's axis value unless another is named. -/
def defaultAxis : String := "SCT_INSTANCE_TYPE_DB"

end Variable

/-! ## The build under test -/

/-- Where the build under test comes from. -/
inductive ArtifactSource where
  | ami (id : String)
  | version (version : String)
  | repo (repo : String)
  | dockerImage (image version : String)
  deriving DecidableEq, Repr

namespace ArtifactSource

/-- The name of the parameter that selects the source. -/
def selector : ArtifactSource → String
  | ami _ => "ami_id"
  | version _ => "version"
  | repo _ => "repo"
  | dockerImage _ _ => "docker_image"

/-- The variables that name the source to the test. -/
def overlay : ArtifactSource → List (String × String)
  | ami id => [(Variable.amiId, id)]
  | version v => [(Variable.version, v)]
  | repo r => [(Variable.repo, r)]
  | dockerImage image v => [(Variable.dockerImage, image), (Variable.version, v)]

end ArtifactSource

/-! ## Disposal and purchase -/

/-- What becomes of nodes after a run. -/
inductive PostBehavior where
  | keep
  | keepOnFailure
  | destroy
  deriving DecidableEq, Repr, Inhabited

namespace PostBehavior

def name : PostBehavior → String
  | keep => "keep"
  | keepOnFailure => "keep-on-failure"
  | destroy => "destroy"

/-- Reads a name, with blanks around it. -/
def parse (s : String) : RunResult PostBehavior :=
  let given := Text.trim s
  match [keep, keepOnFailure, destroy].find? (fun b => b.name == given) with
  | some b => .ok b
  | none => .error (.configuration (.unknownPostBehavior given))

end PostBehavior

/-- Disposal per class of nodes. -/
structure Disposal where
  dbNodes : PostBehavior
  loaderNodes : PostBehavior
  monitorNodes : PostBehavior
  deriving DecidableEq, Repr

/-- How instances are bought. -/
inductive ProvisionType where
  | spot
  | onDemand
  | spotLowPrice
  deriving DecidableEq, Repr

namespace ProvisionType

def name : ProvisionType → String
  | spot => "spot"
  | onDemand => "on_demand"
  | spotLowPrice => "spot_low_price"

/-- Reads a name, with blanks around it. -/
def parse (s : String) : RunResult ProvisionType :=
  let given := Text.trim s
  match [spot, onDemand, spotLowPrice].find? (fun p => p.name == given) with
  | some p => .ok p
  | none => .error (.configuration (.unknownProvisionType given))

end ProvisionType

/-! ## Configurations -/

structure RunConfiguration where
  backend : Backend
  /-- Regions with one space between them. -/
  region : String
  availabilityZone : String
  artifactSource : ArtifactSource
  disposal : Disposal
  provisionType : ProvisionType
  testName : String
  testConfig : Option String
  durationMinutes : Int
  emailRecipients : List String
  /-- The variables handed to every command of the branch. -/
  overlay : NameMap String
  deriving DecidableEq

namespace RunConfiguration

/-- The regions one by one. -/
def regions (c : RunConfiguration) : List String := Text.words c.region

def primaryRegion (c : RunConfiguration) : String :=
  c.regions.head?.getD c.backend.defaultRegion

end RunConfiguration

end Stagehand
