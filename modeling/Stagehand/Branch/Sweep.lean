import Stagehand.Branch.Collaborators
import Stagehand.Branch.Event

/-!
# The sweep

After its stages a branch is swept: artifacts are archived, then every terminal stage that the
ledger lacks is run, in order. The sweep never fails; what goes wrong is reported.

A terminal stage is marked in the ledger once it has ended, whatever came of it. A stage that is cut
together with its branch is not marked.
-/

namespace Stagehand

/-- How far a branch has come: its ledger, what it told, and the world of its collaborators. -/
structure Progress (ω : Type) where
  ledger : Ledger := Ledger.empty
  /-- In the order in which they were told. -/
  events : List Event := []
  world : ω

namespace Progress

variable {ω α : Type}

/-- Tells something. -/
def tell (e : Event) : Timed (Progress ω) Unit :=
  Timed.modify fun p => { p with events := p.events ++ [e] }

def outside (x : Timed ω α) : Timed (Progress ω) α :=
  x.onPart (·.world) fun world p => { p with world }

end Progress

variable {ω α : Type}

/-- Gives a step some seconds; one that needs more has failed. -/
def bounded (step : String) (limit : Nat) (body : Timed ω (RunResult α)) :
    Timed ω (RunResult α) := do
  match ← Timed.within (limit * 1000) body with
  | some result => pure result
  | none => pure (.error (.timeout step limit))

/-- What a terminal stage does outside. -/
def terminalStep (c : Collaborators ω) (ctx : BranchContext) (stage : TerminalStage)
    (target : Target) (limit : Nat) (build : BuildResult) : Timed ω (RunResult Unit) :=
  match stage with
  | .cleanResources => c.cleanResources ctx target limit
  | .sendEmail => c.sendEmail ctx build limit

/-- Runs a terminal stage within its allotment, and marks it. -/
def runTerminal (c : Collaborators ω) (ctx : BranchContext) (budget : TimeBudget) (target : Target)
    (build : BuildResult) (stage : TerminalStage) : Timed (Progress ω) (RunResult Unit) := do
  let limit := budget.limit stage.allocation
  let result ← Progress.outside
    (bounded stage.name limit (terminalStep c ctx stage target limit build))
  Timed.modify fun p => { p with ledger := p.ledger.mark stage }
  pure result

/-- What a sweep did. -/
structure SweepReport where
  artifactsCollected : Bool
  /-- The terminal stages that it ran. -/
  reinvoked : List TerminalStage := []
  /-- One record per stage that it ran. -/
  records : List StageRecord := []
  /-- What went wrong. -/
  errors : List String := []

/-- The errors of a step, under its name. -/
def errorsOf (step : String) : RunResult Unit → List String
  | .ok () => []
  | .error e => [step ++ ": " ++ e.message]

/-- Archives the artifacts, within the allotment of log collection. -/
def archive (c : Collaborators ω) (ctx : BranchContext) (budget : TimeBudget) (target : Target)
    (destination : String) : Timed (Progress ω) SweepReport := do
  let result ← Progress.outside (bounded "copy_artifacts" (budget.limit .logCollect)
    (c.copyArtifacts ctx target destination))
  let collected := result.toOption.isSome
  Progress.tell (.artifactsArchived ctx.axis collected)
  pure { artifactsCollected := collected, errors := errorsOf "copy_artifacts" result }

/-- Runs one terminal stage that was missed. -/
def sweepStage (c : Collaborators ω) (ctx : BranchContext) (budget : TimeBudget) (target : Target)
    (build : BuildResult) (report : SweepReport) (stage : TerminalStage) :
    Timed (Progress ω) SweepReport := do
  let started ← Timed.now
  let result ← runTerminal c ctx budget target build stage
  let ended ← Timed.now
  Progress.tell (.sweepInvoked ctx.axis stage result.toOption.isSome)
  pure
    { report with
      reinvoked := report.reinvoked ++ [stage]
      records := report.records ++ [StageRecord.ofResult stage.toStage (ended - started) result]
      errors := report.errors ++ errorsOf stage.name result }

/-- Runs missed stages one after the other. -/
def sweepStages (c : Collaborators ω) (ctx : BranchContext) (budget : TimeBudget) (target : Target)
    (build : BuildResult) : List TerminalStage → SweepReport → Timed (Progress ω) SweepReport
  | [], report => pure report
  | stage :: rest, report => do
    let report ← sweepStage c ctx budget target build report stage
    sweepStages c ctx budget target build rest report

/-- Archives the artifacts and runs every terminal stage that the ledger lacks. -/
def sweep (c : Collaborators ω) (ctx : BranchContext) (budget : TimeBudget) (target : Target)
    (build : BuildResult) (destination : String) : Timed (Progress ω) SweepReport := do
  let report ← archive c ctx budget target destination
  let progress ← Timed.get
  sweepStages c ctx budget target build progress.ledger.missing report

end Stagehand
