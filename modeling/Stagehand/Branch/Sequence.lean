import Stagehand.Branch.Sweep

/-!
# Running a branch

A branch resolves its parameters, checks its workspace out, computes its budget and then runs its
stages under one limit for the whole branch. Every stage is attempted, whatever became of those
before it; each is bounded by its own allotment. Afterwards the branch is swept.

**Fatal ends.** Parameters that do not resolve, a checkout that fails fatally and a duration that is
refused end the branch before anything is provisioned; nothing is finalized then.

**The runner.** A branch whose backend has one runs its steps there; if none could be had they run
here. If its address is unusable the test is not run at all.

**The branch limit.** The stage in flight when the limit passes is recorded as timed out, and what
it did not get to is left to the sweep.
-/

namespace Stagehand

structure BranchState (ω : Type) where
  progress : Progress ω
  records : List StageRecord := []
  /-- The stage that is being attempted, and since when. -/
  inFlight : Option (Stage × Nat) := none
  target : Target := .here
  runner : Option Network.Address := none

namespace BranchState

variable {ω α : Type}

/-- Works on the progress. -/
def onProgress (x : Timed (Progress ω) α) : Timed (BranchState ω) α :=
  x.onPart (·.progress) fun progress s => { s with progress }

def outside (x : Timed ω α) : Timed (BranchState ω) α := onProgress (Progress.outside x)

def tell (e : Event) : Timed (BranchState ω) Unit := onProgress (Progress.tell e)

def anyFailed (s : BranchState ω) : Bool := s.records.any (·.status.isFailure)

/-- Keeps a record without telling it. -/
def keep (r : StageRecord) : Timed (BranchState ω) Unit :=
  Timed.modify fun s => { s with records := s.records ++ [r] }

def record (axis : String) (r : StageRecord) : Timed (BranchState ω) Unit := do
  tell (.stageCompleted axis r)
  keep r

/-- Runs one stage and records what came of it. -/
def attempt (axis : String) (stage : Stage) (body : Timed (BranchState ω) (RunResult α)) :
    Timed (BranchState ω) (RunResult α) := do
  let started ← Timed.now
  Timed.modify fun s => { s with inFlight := some (stage, started) }
  tell (.stageStarted axis stage)
  let result ← body
  Timed.modify fun s => { s with inFlight := none }
  let ended ← Timed.now
  record axis (StageRecord.ofResult stage (ended - started) result)
  pure result

/-- Runs one stage within its allotment. -/
def attemptBounded (axis : String) (stage : Stage) (limit : Nat) (body : Timed ω (RunResult α)) :
    Timed (BranchState ω) (RunResult α) :=
  attempt axis stage (bounded stage.name limit (outside body))

end BranchState

open BranchState

variable {ω : Type}

/-! ## The stages after checkout -/

/-- Provisions a runner, if the backend has one. Answers why the runner is unusable, if it is. -/
def runnerStage (c : Collaborators ω) (ctx : BranchContext) (budget : TimeBudget) :
    Timed (BranchState ω) (Option RunError) := do
  if ctx.config.backend.supportsRunner then
    let limit := budget.limit .runnerProvision
    match ← attemptBounded ctx.axis .createRunner limit (c.createRunner ctx limit) with
    | .ok address =>
      Timed.modify fun s => { s with target := .remote address, runner := some address }
      pure none
    | .error e =>
      if e.isFatal then pure (some e)
      else
        tell (.log .warning "runner unavailable, running locally" (some ctx.axis))
        pure none
  else
    keep (.skipped .createRunner
      ("backend " ++ ctx.config.backend.name ++ " runs without a runner"))
    pure none

/-- Runs the test, unless its runner is unusable. -/
def testStage (c : Collaborators ω) (ctx : BranchContext) (budget : TimeBudget) :
    Option RunError → Timed (BranchState ω) Unit
  | some reason =>
    record ctx.axis
      (.failed .runTest .failed 0 ("runner address unavailable: " ++ reason.message))
  | none => do
    let s ← Timed.get
    let limit := budget.limit .testRun
    let _ ← attemptBounded ctx.axis .runTest limit (c.runTest ctx s.target limit)
    pure ()

def logStage (c : Collaborators ω) (ctx : BranchContext) (budget : TimeBudget) :
    Timed (BranchState ω) Unit := do
  let s ← Timed.get
  let limit := budget.limit .logCollect
  let _ ← attemptBounded ctx.axis .collectLogs limit (c.collectLogs ctx s.target limit)
  pure ()

def terminalStages (c : Collaborators ω) (ctx : BranchContext) (budget : TimeBudget)
    (target : Target) (build : BuildResult) : List TerminalStage → Timed (BranchState ω) Unit
  | [] => pure ()
  | stage :: rest => do
    let _ ← attempt ctx.axis stage.toStage
      (onProgress (runTerminal c ctx budget target build stage))
    terminalStages c ctx budget target build rest

/-- The stages after checkout: runner, test, logs and the terminal stages. -/
def provisionedStages (c : Collaborators ω) (ctx : BranchContext) (budget : TimeBudget) :
    Timed (BranchState ω) Unit := do
  let unusable ← runnerStage c ctx budget
  testStage c ctx budget unusable
  logStage c ctx budget
  let s ← Timed.get
  let build := if s.anyFailed then BuildResult.failure else .success
  terminalStages c ctx budget s.target build TerminalStage.order

/-! ## The branch -/

/-- The text of the record of a stage that was cut with its branch. -/
def cutText : String := "cancelled by the branch time limit"

def recordCut (axis : String) : Timed (BranchState ω) Unit := do
  let s ← Timed.get
  match s.inFlight with
  | some (stage, started) =>
    let now ← Timed.now
    Timed.modify fun s => { s with inFlight := none }
    record axis (.failed stage .timedOut (now - started) cutText)
  | none => pure ()

/-- The stages that are passed over when there is no workspace. -/
def stagesOnWorkspace : List Stage := [.createRunner, .runTest, .collectLogs]

/-- Runs the stages after checkout within the branch limit, in milliseconds. Answers whether
they were cut. -/
def mainStages (c : Collaborators ω) (ctx : BranchContext) (budget : TimeBudget) (limit : Nat)
    (checkedOut : Bool) : Timed (BranchState ω) Bool := do
  if checkedOut then
    match ← Timed.within limit (provisionedStages c ctx budget) with
    | some () => pure false
    | none =>
      recordCut ctx.axis
      pure true
  else
    Timed.modify fun s =>
      { s with
        records := s.records ++ stagesOnWorkspace.map (StageRecord.skipped · "checkout failed") }
    pure false

/-- Where artifacts are archived, inside a workspace. -/
def artifactsDir : String := "artifacts"

/-- Sweeps a branch whose stages are over. Answers whether there are artifacts, and whether a stage
failed. -/
def finish (c : Collaborators ω) (ctx : BranchContext) (budget : TimeBudget) (wasCut : Bool) :
    Timed (BranchState ω) (Bool × Bool) := do
  let s ← Timed.get
  let failed := wasCut || s.anyFailed
  let build := if wasCut then BuildResult.aborted else if failed then .failure else .success
  let report ← onProgress
    (sweep c ctx budget s.target build (Path.join ctx.workdir artifactsDir))
  Timed.modify fun s => { s with records := s.records ++ report.records }
  pure (report.artifactsCollected, failed)

/-- Runs a plan. Only fatal failures are answered as such. The branch limit is given in
milliseconds, or follows from the budget. -/
def runStages (c : Collaborators ω) (policy : SelectorPolicy) (branchLimit : Option Nat)
    (plan : BranchPlan) : Timed (BranchState ω) (RunResult (Bool × Bool)) := do
  match plan.params.resolve policy with
  | .error e => pure (.error e)
  | .ok config =>
    let ctx := plan.context config
    match ← attempt ctx.axis .checkout (outside (c.checkout ctx)) with
    | .ok () => budgeted ctx true
    | .error e => if e.isFatal then pure (.error e) else budgeted ctx false
where
  /-- Goes on after checkout. -/
  budgeted (ctx : BranchContext) (checkedOut : Bool) :
      Timed (BranchState ω) (RunResult (Bool × Bool)) := do
    match ← attempt ctx.axis .computeBudget
      (pure
        (TimeBudget.compute ctx.config.durationMinutes ctx.config.backend ctx.config.region)) with
    | .error e => pure (.error e)
    | .ok budget =>
      let limit := branchLimit.getD (budget.branchLimit * 1000)
      let wasCut ← mainStages c ctx budget limit checkedOut
      pure (.ok (← finish c ctx budget wasCut))

/-- The status of a branch that was finalized. -/
def finalStatus (failed : Bool) (ledger : Ledger) : BranchStatus :=
  if !failed then .passed else if ledger.allComplete then .degraded else .failed

/-- Runs a branch end to end. -/
def runBranch (c : Collaborators ω) (policy : SelectorPolicy) (branchLimit : Option Nat)
    (plan : BranchPlan) : Timed (BranchState ω) BranchOutcome := do
  let started ← Timed.now
  tell (.branchStarted plan.axis plan.testId)
  let result ← runStages c policy branchLimit plan
  match result with
  | .error e => tell (.log .error e.message (some plan.axis))
  | .ok _ => pure ()
  let s ← Timed.get
  let ended ← Timed.now
  let outcome : BranchOutcome :=
    { axis := plan.axis
      testId := plan.testId
      status := match result with
        | .ok (_, failed) => finalStatus failed s.progress.ledger
        | .error _ => .failed
      stages := s.records
      ledger := s.progress.ledger
      artifactsCollected := match result with
        | .ok (collected, _) => collected
        | .error _ => false
      runner := s.runner
      error := match result with
        | .ok _ => none
        | .error e => some e.message
      duration := ended - started }
  tell (.branchCompleted outcome.axis outcome.status outcome.duration)
  pure outcome

/-- Runs a branch from the start of time in a world, within a limit in milliseconds if
one is given. -/
def BranchPlan.runWithin (plan : BranchPlan) (c : Collaborators ω) (policy : SelectorPolicy)
    (branchLimit : Option Nat) (world : ω) : Ended (BranchState ω) BranchOutcome :=
  (runBranch c policy branchLimit plan).run { progress := { world } }

/-- Runs a branch within a limit in seconds, if one is given. -/
def BranchPlan.run (plan : BranchPlan) (c : Collaborators ω) (policy : SelectorPolicy)
    (branchLimit : Option Nat) (world : ω) : Ended (BranchState ω) BranchOutcome :=
  plan.runWithin c policy (branchLimit.map (· * 1000)) world

end Stagehand
