import Stagehand.Branch.Plan
import Stagehand.Timed

/-!
# Collaborators

The steps of a branch that are done outside. Of most only success or failure matters; creating a
runner gives its address. Limits are in seconds.
-/

namespace Stagehand

/-- Where a step runs. -/
inductive Target where
  /-- In a container on this host. -/
  | here
  /-- In a container on a runner. -/
  | remote (host : Network.Address)
  deriving DecidableEq, Repr

/-- The text of a target. -/
def Target.describe : Target → String
  | here => "local"
  | remote host => "remote(" ++ host.render ++ ")"

/-- What is told about the test. -/
inductive BuildResult where
  | success
  | failure
  | aborted
  deriving DecidableEq, Repr

def BuildResult.name : BuildResult → String
  | success => "SUCCESS"
  | failure => "FAILURE"
  | aborted => "ABORTED"

/-- The steps that are done outside. -/
structure Collaborators (ω : Type) where
  /-- Makes the workspace. -/
  checkout : BranchContext → Timed ω (RunResult Unit)
  createRunner : BranchContext → Nat → Timed ω (RunResult Network.Address)
  runTest : BranchContext → Target → Nat → Timed ω (RunResult Unit)
  collectLogs : BranchContext → Target → Nat → Timed ω (RunResult Unit)
  cleanResources : BranchContext → Target → Nat → Timed ω (RunResult Unit)
  sendEmail : BranchContext → BuildResult → Nat → Timed ω (RunResult Unit)
  /-- Fetches the results of the test into a directory. -/
  copyArtifacts : BranchContext → Target → String → Timed ω (RunResult Unit)

end Stagehand
