import Stagehand.Config.Params

/-!
# Resolution

`resolve` turns parameters into the configuration of a branch, or says why they are refused. Blank
parameters count as absent. Of several artifact sources the first in the order AMI, version,
repository is taken, or the parameters are refused, as the policy says; a docker image rides on the
version.

The overlay of the configuration names every parameter that the resolution decided; further
variables of the parameters are added where they do not contradict it.
-/

namespace Stagehand

/-- What to do with more than one artifact source. -/
inductive SelectorPolicy where
  /-- Take the first and ignore the rest. -/
  | firstMatch
  /-- Refuse. -/
  | strict
  deriving DecidableEq, Repr

/-- The test that is run when none is named. -/
def defaultTestName : String := "longevity_test.LongevityTest.test_custom_time"

/-- The minutes of a test when none are given. -/
def defaultDuration : Int := 360

def refuse {α : Type} (cause : ConfigError) : RunResult α := .error (.configuration cause)

namespace RunParams

/-- The sources that the parameters name, first choice first. -/
def artifactSources (p : RunParams) : List ArtifactSource :=
  ((nonBlank? p.amiId).map ArtifactSource.ami).toList ++
  ((nonBlank? p.version).map fun v =>
    match nonBlank? p.dockerImage with
    | some image => ArtifactSource.dockerImage image v
    | Option.none => ArtifactSource.version v).toList ++
  ((nonBlank? p.repo).map ArtifactSource.repo).toList

/-- The one source of the build under test. -/
def artifactSource (p : RunParams) (policy : SelectorPolicy) : RunResult ArtifactSource :=
  if (nonBlank? p.dockerImage).isSome && (nonBlank? p.version).isNone then
    refuse .imageWithoutVersion
  else
    match p.artifactSources, policy with
    | [], _ => refuse .noArtifactSource
    | first :: second :: rest, .strict =>
      refuse (.conflictingSources ((first :: second :: rest).map ArtifactSource.selector))
    | first :: _, _ => .ok first

/-- Reads a parameter that may be absent. -/
def parseOr {α : Type} (read : String → RunResult α) (default : α) (value : Option String) :
    RunResult α :=
  match nonBlank? value with
  | some v => read v
  | Option.none => .ok default

/-- The variables that tell a configuration to the test, without those that are passed on. -/
def decidedOverlay (backend : Backend) (region zone : String) (source : ArtifactSource)
    (disposal : Disposal) (provision : ProvisionType) (testConfig : Option String) :
    List (String × String) :=
  [(Variable.backend, backend.name), (Variable.region, region),
    (Variable.availabilityZone, zone)] ++
  source.overlay ++
  [(Variable.postBehaviorDb, disposal.dbNodes.name),
   (Variable.postBehaviorLoader, disposal.loaderNodes.name),
   (Variable.postBehaviorMonitor, disposal.monitorNodes.name),
   (Variable.provisionType, provision.name)] ++
  (testConfig.map fun c => (Variable.testConfig, c)).toList

/-- Adds variables whose names are free. -/
def addFree (decided extra : NameMap String) : NameMap String :=
  decided.insertAll (extra.toList.filter fun e => !decided.contains e.1)

def resolve (policy : SelectorPolicy) (p : RunParams) : RunResult RunConfiguration := do
  let backend ← parseOr Backend.parse .aws p.backend
  let source ← p.artifactSource policy
  let region :=
    match nonBlank? p.region with
    | some r => Text.joinWith " " (Text.words r)
    | Option.none => backend.defaultRegion
  let dbNodes ← parseOr PostBehavior.parse .destroy p.postBehaviorDb
  let loaderNodes ← parseOr PostBehavior.parse .destroy p.postBehaviorLoader
  let monitorNodes ← parseOr PostBehavior.parse .destroy p.postBehaviorMonitor
  let provision ← parseOr ProvisionType.parse .spot p.provisionType
  match p.invalidDuration with
  | some text => refuse (.fractionalDuration (Text.trim text))
  | Option.none =>
    let zone := (nonBlank? p.availabilityZone).getD "a"
    let testConfig := nonBlank? p.testConfig
    let disposal := ⟨dbNodes, loaderNodes, monitorNodes⟩
    let recipients := ((nonBlank? p.emailRecipients).getD "").toList
    .ok
      { backend
        region
        availabilityZone := zone
        artifactSource := source
        disposal
        provisionType := provision
        testName := (nonBlank? p.testName).getD defaultTestName
        testConfig
        durationMinutes := p.durationMinutes.getD defaultDuration
        emailRecipients :=
          (Text.fields (fun c => c == ',' || Text.isBlank c) recipients).map String.ofList
        overlay := addFree
          (NameMap.ofList (decidedOverlay backend region zone source disposal provision testConfig))
          p.extraEnv }

end RunParams

end Stagehand
