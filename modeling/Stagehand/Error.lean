import Stagehand.Files.Tree

/-!
# What can go wrong in a run

A `RunError` is the cause of a failure. Configuration errors, addresses that are none and documents
that cannot be read are **fatal**: they end a branch before anything is provisioned. Failed
commands, expired limits and refusals of the host are recorded, and the run goes on.

`RunError.message` holds the wording of every cause, `RunError.exitCode` the status that a program
which ends with it gives back.
-/

namespace Stagehand

/-! ## Configuration -/

/-- Why a configuration is refused. -/
inductive ConfigError where
  | unknownBackend (given : String) (known : List String)
  | unknownPostBehavior (given : String)
  | unknownProvisionType (given : String)
  | imageWithoutVersion
  | noArtifactSource
  | conflictingSources (selectors : List String)
  | fractionalDuration (given : String)
  | shortDuration (minutes : Int)
  | longDuration (minutes limit : Int)
  | runnerlessBackend (backend : String)
  | missingTools (tools : List String)
  | unreadableSettings (path : String) (cause : FileError)
  | unreadableAddress (path : String) (cause : FileError)
  | blankAddress (path : String)
  | stated (message : String)
  deriving DecidableEq, Repr

def ConfigError.message : ConfigError → String
  | unknownBackend given known =>
    "unknown backend '" ++ given ++ "', expected one of: " ++ Text.joinWith ", " known
  | unknownPostBehavior given =>
    "invalid post behavior '" ++ given ++ "', expected keep, keep-on-failure or destroy"
  | unknownProvisionType given =>
    "invalid provision type '" ++ given ++ "', expected spot, on_demand or spot_low_price"
  | imageWithoutVersion => "docker image requires explicit version"
  | noArtifactSource => "no artifact source specified"
  | conflictingSources selectors =>
    "conflicting artifact sources specified: " ++ Text.joinWith ", " selectors
  | fractionalDuration given =>
    "test duration must be a whole number of minutes, got '" ++ given ++ "'"
  | shortDuration minutes =>
    "test duration must be positive, got " ++ toString minutes ++ " minutes"
  | longDuration minutes limit =>
    "test duration of " ++ toString minutes ++ " minutes exceeds the maximum of " ++
      toString limit ++ " minutes"
  | runnerlessBackend backend => "backend " ++ backend ++ " cannot provision a runner"
  | missingTools tools => "required tools not found on PATH: " ++ Text.joinWith ", " tools
  | unreadableSettings path cause => "cannot read settings " ++ path ++ ": " ++ cause.message
  | unreadableAddress path cause =>
    "runner address file " ++ path ++ " is unreadable: " ++ cause.message
  | blankAddress path => "runner address file " ++ path ++ " is empty"
  | stated message => message

/-! ## Runs -/

/-- Why a step of a run failed. Limits are in seconds. -/
inductive RunError where
  | configuration (cause : ConfigError)
  | command (line : String) (exitCode : Option Int) (stderr : String)
  | timeout (step : String) (limit : Nat)
  | notAnAddress (given : String)
  | file (cause : FileError)
  | document (reason : String)
  deriving DecidableEq, Repr

namespace RunError

/-- How a command ended. -/
def describeExit : Option Int → String
  | some code => "exit code " ++ toString code
  | none => "terminated without an exit code"

def message : RunError → String
  | configuration cause => "configuration error: " ++ cause.message
  | command line exitCode _ => "command `" ++ line ++ "` failed (" ++ describeExit exitCode ++ ")"
  | timeout step limit =>
    step ++ " exceeded its budget of " ++ toString (limit / 60) ++ " minutes"
  | notAnAddress given =>
    "invalid runner address '" ++ given ++ "': expected a dotted-quad IPv4 address. " ++
      "Look the runner up with `hydra list-resources --test-id <id>` and retry " ++
      "with `--execute-on-runner <ip>`"
  | file cause => "IO error: " ++ cause.message
  | document reason => "invalid YAML: " ++ reason

/-- Fatal failures end a branch without finalization. -/
def isFatal : RunError → Bool
  | configuration _ | notAnAddress _ | document _ => true
  | command _ _ _ | timeout _ _ | file _ => false

/-- Failures of a step, which are recorded and passed over. -/
def isStepFailure : RunError → Bool
  | command _ _ _ | timeout _ _ | file _ => true
  | configuration _ | notAnAddress _ | document _ => false

/-- The status of a program that ends with this failure. -/
def exitCode : RunError → Int
  | configuration _ | document _ => 2
  | notAnAddress _ => 3
  | command _ (some code) _ => if code = 0 then 1 else code
  | command _ none _ | timeout _ _ | file _ => 1

end RunError

/-- A result that may have failed. -/
abbrev RunResult (α : Type) := Except RunError α

end Stagehand
