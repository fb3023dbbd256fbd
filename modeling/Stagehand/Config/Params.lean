import Stagehand.Config.Run
import Stagehand.Decimal.Integer

/-!
# Run parameters

Parameters as they are given, each optional and none checked. They come from documents and from
variables, and are laid over one another: a field that the upper layer sets wins.

A duration variable that is no whole number is kept aside, so that resolution can refuse it. The two
fields of the duration move together: an upper layer with either of them replaces what was kept
aside.
-/

namespace Stagehand

structure RunParams where
  backend : Option String := none
  region : Option String := none
  availabilityZone : Option String := none
  amiId : Option String := none
  version : Option String := none
  repo : Option String := none
  dockerImage : Option String := none
  postBehaviorDb : Option String := none
  postBehaviorLoader : Option String := none
  postBehaviorMonitor : Option String := none
  provisionType : Option String := none
  testName : Option String := none
  testConfig : Option String := none
  durationMinutes : Option Int := none
  /-- The duration as it was given, when it is no whole number. -/
  invalidDuration : Option String := none
  emailRecipients : Option String := none
  /-- Variables that are passed on as they are. -/
  extraEnv : NameMap String := NameMap.empty
  deriving DecidableEq, Inhabited

namespace RunParams

/-- No parameter is given. -/
def none : RunParams := {}

def setDuration (p : RunParams) (text : String) : RunParams :=
  match Decimal.parseInt64? (Text.trim text) with
  | some minutes => { p with durationMinutes := some minutes, invalidDuration := Option.none }
  | Option.none => { p with durationMinutes := Option.none, invalidDuration := some text }

/-- Sets the field that a variable carries; a variable that carries none is passed on if its name
starts like theirs, and ignored if not. -/
def setVariable (p : RunParams) (name value : String) : RunParams :=
  if name = Variable.backend then { p with backend := some value }
  else if name = Variable.region then { p with region := some value }
  else if name = Variable.availabilityZone then { p with availabilityZone := some value }
  else if name = Variable.amiId then { p with amiId := some value }
  else if name = Variable.version then { p with version := some value }
  else if name = Variable.repo then { p with repo := some value }
  else if name = Variable.dockerImage then { p with dockerImage := some value }
  else if name = Variable.postBehaviorDb then { p with postBehaviorDb := some value }
  else if name = Variable.postBehaviorLoader then { p with postBehaviorLoader := some value }
  else if name = Variable.postBehaviorMonitor then { p with postBehaviorMonitor := some value }
  else if name = Variable.provisionType then { p with provisionType := some value }
  else if name = Variable.testName then { p with testName := some value }
  else if name = Variable.testConfig then { p with testConfig := some value }
  else if name = Variable.testDuration then p.setDuration value
  else if name = Variable.emailRecipients then { p with emailRecipients := some value }
  else if Text.startsWith Variable.stem.toList name.toList then
    { p with extraEnv := p.extraEnv.insert name value }
  else p

/-- The parameters that variables carry; the last value of a name counts. -/
def ofVariables (vars : List (String × String)) : RunParams :=
  vars.foldl (fun p v => p.setVariable v.1 v.2) none

/-- Lays `upper` over `lower`. -/
def overlaidWith (lower upper : RunParams) : RunParams where
  backend := upper.backend.or lower.backend
  region := upper.region.or lower.region
  availabilityZone := upper.availabilityZone.or lower.availabilityZone
  amiId := upper.amiId.or lower.amiId
  version := upper.version.or lower.version
  repo := upper.repo.or lower.repo
  dockerImage := upper.dockerImage.or lower.dockerImage
  postBehaviorDb := upper.postBehaviorDb.or lower.postBehaviorDb
  postBehaviorLoader := upper.postBehaviorLoader.or lower.postBehaviorLoader
  postBehaviorMonitor := upper.postBehaviorMonitor.or lower.postBehaviorMonitor
  provisionType := upper.provisionType.or lower.provisionType
  testName := upper.testName.or lower.testName
  testConfig := upper.testConfig.or lower.testConfig
  durationMinutes := upper.durationMinutes.or lower.durationMinutes
  invalidDuration :=
    if upper.durationMinutes.isSome || upper.invalidDuration.isSome then upper.invalidDuration
    else lower.invalidDuration
  emailRecipients := upper.emailRecipients.or lower.emailRecipients
  extraEnv := lower.extraEnv.insertAll upper.extraEnv.toList

/-- The value of a parameter without the blanks around it, if anything is left. -/
def nonBlank? (value : Option String) : Option String :=
  (value.map Text.trim).filter (fun v => v != "")

end RunParams

end Stagehand
