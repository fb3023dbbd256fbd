import Stagehand.Budget

/-!
# Stages

The stages of a branch, in their fixed order, and the records that they leave. The last two are
**terminal**: the ledger keeps whether they have run, and the sweep runs those that have not.
-/

namespace Stagehand

/-! ## Terminal stages -/

/-- Stages that every branch has to run. -/
inductive TerminalStage where
  | cleanResources
  | sendEmail
  deriving DecidableEq, Repr

namespace TerminalStage

/-- The terminal stages in their order. -/
def order : List TerminalStage := [cleanResources, sendEmail]

def name : TerminalStage → String
  | cleanResources => "clean_resources"
  | sendEmail => "send_email"

/-- What bounds a terminal stage. -/
def allocation : TerminalStage → Allocation
  | cleanResources => .resourceCleanup
  | sendEmail => .sendEmail

end TerminalStage

/-! ## Stages -/

inductive Stage where
  | checkout
  | computeBudget
  | createRunner
  | runTest
  | collectLogs
  | cleanResources
  | sendEmail
  deriving DecidableEq, Repr

namespace Stage

/-- The stages in their order. -/
def sequence : List Stage :=
  [checkout, computeBudget, createRunner, runTest, collectLogs, cleanResources, sendEmail]

def name : Stage → String
  | checkout => "checkout"
  | computeBudget => "compute_budget"
  | createRunner => "create_runner"
  | runTest => "run_test"
  | collectLogs => "collect_logs"
  | cleanResources => "clean_resources"
  | sendEmail => "send_email"

/-- The terminal stage that a stage is. -/
def terminal? : Stage → Option TerminalStage
  | cleanResources => some .cleanResources
  | sendEmail => some .sendEmail
  | _ => none

def allocation? : Stage → Option Allocation
  | checkout | computeBudget => none
  | createRunner => some .runnerProvision
  | runTest => some .testRun
  | collectLogs => some .logCollect
  | cleanResources => some .resourceCleanup
  | sendEmail => some .sendEmail

end Stage

def TerminalStage.toStage : TerminalStage → Stage
  | cleanResources => .cleanResources
  | sendEmail => .sendEmail

/-! ## Records -/

inductive StageStatus where
  | succeeded
  | failed
  /-- It ran past its limit, or was cut with its branch. -/
  | timedOut
  /-- It does not apply to the branch. -/
  | skipped
  deriving DecidableEq, Repr

namespace StageStatus

/-- The name of a status. -/
def name : StageStatus → String
  | succeeded => "succeeded"
  | failed => "failed"
  | timedOut => "timed_out"
  | skipped => "skipped"

/-- The stage did not do what it was for. -/
def isFailure : StageStatus → Bool
  | failed | timedOut => true
  | succeeded | skipped => false

end StageStatus

/-- What one attempt at a stage left. The duration is in milliseconds. -/
structure StageRecord where
  stage : Stage
  status : StageStatus
  duration : Nat
  error : Option String
  deriving DecidableEq, Repr

namespace StageRecord

def succeeded (stage : Stage) (duration : Nat) : StageRecord := ⟨stage, .succeeded, duration, none⟩

/-- The record of a stage that failed, or was cut. -/
def failed (stage : Stage) (status : StageStatus) (duration : Nat) (error : String) : StageRecord :=
  ⟨stage, status, duration, some error⟩

def skipped (stage : Stage) (reason : String) : StageRecord := ⟨stage, .skipped, 0, some reason⟩

/-- The status that a failure gives to a stage. -/
def statusOf : RunError → StageStatus
  | .timeout _ _ => .timedOut
  | _ => .failed

/-- The record of a finished attempt. -/
def ofResult {α : Type} (stage : Stage) (duration : Nat) : RunResult α → StageRecord
  | .ok _ => succeeded stage duration
  | .error e => failed stage (statusOf e) duration e.message

end StageRecord

/-! ## The ledger -/

/-- Which terminal stages have run. Nothing is ever taken back. -/
structure Ledger where
  cleaned : Bool := false
  mailed : Bool := false
  deriving DecidableEq, Repr, Inhabited

namespace Ledger

/-- Nothing has run. -/
def empty : Ledger := {}

/-- Notes that a stage has run, whatever came of it. -/
def mark (l : Ledger) : TerminalStage → Ledger
  | .cleanResources => { l with cleaned := true }
  | .sendEmail => { l with mailed := true }

/-- The stage has run. -/
def isComplete (l : Ledger) : TerminalStage → Bool
  | .cleanResources => l.cleaned
  | .sendEmail => l.mailed

/-- The stages that have not run, in order. -/
def missing (l : Ledger) : List TerminalStage := TerminalStage.order.filter fun s => !l.isComplete s

def allComplete (l : Ledger) : Bool := l.missing.isEmpty

end Ledger

end Stagehand
