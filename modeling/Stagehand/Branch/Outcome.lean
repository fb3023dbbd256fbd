import Stagehand.Branch.Stage
import Stagehand.NameMap

/-!
# Outcomes

What a branch came to, and what a run of several branches came to.
-/

namespace Stagehand

/-! ## Branches -/

inductive BranchStatus where
  /-- Every stage succeeded or did not apply. -/
  | passed
  /-- A stage failed; what has to be finalized was. -/
  | degraded
  /-- The branch ended before it was finalized. -/
  | failed
  deriving DecidableEq, Repr

/-- The name of a branch status. -/
def BranchStatus.name : BranchStatus → String
  | passed => "passed"
  | degraded => "degraded"
  | failed => "failed"

/-- What a branch came to. -/
structure BranchOutcome where
  axis : String
  testId : String
  status : BranchStatus
  stages : List StageRecord
  ledger : Ledger
  artifactsCollected : Bool
  runner : Option Network.Address
  error : Option String
  duration : Nat
  deriving DecidableEq, Repr

namespace BranchOutcome

/-- The outcome of a branch that never came to an end of its own. -/
def failed (axis error : String) : BranchOutcome :=
  ⟨axis, "", .failed, [], Ledger.empty, false, none, some error, 0⟩

/-- The last record of a stage. -/
def stage? (o : BranchOutcome) (stage : Stage) : Option StageRecord :=
  o.stages.reverse.find? fun r => r.stage == stage

end BranchOutcome

/-! ## Runs -/

/-- The end of a run of several branches. -/
inductive OverallStatus where
  /-- Every branch passed. -/
  | passed
  /-- Some branch did not pass, but there are artifacts. -/
  | degraded
  /-- There are no artifacts at all. -/
  | failing
  deriving DecidableEq, Repr

namespace OverallStatus

/-- The name of an overall status. -/
def name : OverallStatus → String
  | passed => "passed"
  | degraded => "degraded"
  | failing => "failing"

/-- The status of a run with these branches. -/
def ofOutcomes (outcomes : List BranchOutcome) : OverallStatus :=
  if !outcomes.any (·.artifactsCollected) then failing
  else if outcomes.all (·.status == .passed) then passed
  else degraded

end OverallStatus

/-- The summary of a run: its branches by axis. -/
structure RunSummary where
  overall : OverallStatus
  branches : NameMap BranchOutcome
  duration : Nat

namespace RunSummary

def ofBranches (branches : NameMap BranchOutcome) (duration : Nat) : RunSummary :=
  ⟨OverallStatus.ofOutcomes branches.values, branches, duration⟩

/-- How many branches ended in a status. -/
def count (s : RunSummary) (status : BranchStatus) : Nat :=
  (s.branches.values.filter fun b => b.status == status).length

end RunSummary

end Stagehand
