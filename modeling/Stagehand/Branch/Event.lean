import Stagehand.Branch.Outcome

/-!
# Progress

What a run tells while it goes on. Durations are in milliseconds.
-/

namespace Stagehand

/-- How much a message matters. -/
inductive LogLevel where
  | debug
  | info
  | warning
  | error
  deriving DecidableEq, Repr

def LogLevel.name : LogLevel → String
  | debug => "debug"
  | info => "info"
  | warning => "warning"
  | error => "error"

/-- Progress of a run. -/
inductive Event where
  | runStarted (branches : Nat)
  | runCompleted (overall : OverallStatus) (duration : Nat)
  | branchStarted (axis testId : String)
  | branchCompleted (axis : String) (status : BranchStatus) (duration : Nat)
  | stageStarted (axis : String) (stage : Stage)
  | stageCompleted (axis : String) (record : StageRecord)
  | sweepInvoked (axis : String) (stage : TerminalStage) (success : Bool)
  | artifactsArchived (axis : String) (success : Bool)
  | log (level : LogLevel) (message : String) (axis : Option String)
  deriving DecidableEq, Repr

/-- The branch that progress belongs to. -/
def Event.axis? : Event → Option String
  | runStarted _ | runCompleted _ _ => none
  | branchStarted axis _ | branchCompleted axis _ _ | stageStarted axis _ | stageCompleted axis _
  | sweepInvoked axis _ _ | artifactsArchived axis _ => some axis
  | log _ _ axis => axis

end Stagehand
