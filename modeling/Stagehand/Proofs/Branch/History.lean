import Stagehand.Proofs.Branch.Notes

/-!
# The history of a branch

What a branch did is a list of steps, one per stage that it came to, and then what its sweep did.
All that is kept of a run is read off that list: the records, the events, the ledger, the runner,
and what was noted of the calls.

**Steps.** A step at a stage is an attempt, or is taken without a call: a stage that does not
apply is passed over, and the test is refused if its runner is unusable. A stage that is cut with
its branch is the last step before the sweep.

**Courses.** `Course` tells which lists of steps a plan can lead to: what each call is given
follows from the steps before it, and every attempt is over by its limit.
-/

namespace Stagehand

open Rehearsal (Call CallNote)

/-! ## Attempts -/

@[simp] theorem TerminalStage.terminal?_toStage (stage : TerminalStage) :
    stage.toStage.terminal? = some stage := by
  cases stage <;> rfl

@[simp] theorem StageRecord.ofResult_map {α β : Type} (stage : Stage) (duration : Nat) (f : α → β)
    (r : RunResult α) : ofResult stage duration (r.map f) = ofResult stage duration r := by
  cases r <;> rfl

@[simp] theorem StageRecord.stage_ofResult {α : Type} (stage : Stage) (duration : Nat)
    (r : RunResult α) : (ofResult stage duration r).stage = stage := by
  cases r <;> rfl

/-- An attempt at a stage: what was called, how that ended, and when. -/
structure Attempt where
  stage : Stage
  call : CallNote
  ending : CallEnding
  stop : Nat

namespace Attempt

/-- What came of it. -/
def result (a : Attempt) : RunResult (Option Network.Address) :=
  a.ending.result a.stage.name (a.call.limit.getD 0)

def record (a : Attempt) : StageRecord := .ofResult a.stage (a.stop - a.call.time) a.result

theorem stage_record (a : Attempt) : a.record.stage = a.stage := StageRecord.stage_ofResult _ _ _

def notes (a : Attempt) : List Note := [.called a.call, a.ending.note a.call.call a.stop]

/-- It was over by its limit, and at its limit if that is what ended it. -/
def Timely (a : Attempt) : Prop :=
  a.call.time ≤ a.stop ∧ ∀ limit, a.call.limit = some limit →
    a.stop ≤ a.call.time + limit * 1000 ∧
    (a.ending = .expired → a.stop = a.call.time + limit * 1000)

/-- It was made at this stage by this call, and was over in time. -/
structure IsAt (a : Attempt) (stage : Stage) (call : CallNote) (deadline : Option Nat) : Prop where
  hstage : a.stage = stage
  hcall : a.call = call
  htimely : a.Timely
  hmeets : Timed.meets a.stop deadline

end Attempt

/-- The deadline drops a call before its own limit. -/
structure IsDropped (call : CallNote) (deadline : Option Nat) (stop : Nat) : Prop where
  hdeadline : deadline = some stop
  hstarted : call.time ≤ stop
  hearly : ∀ limit, call.limit = some limit → stop < call.time + limit * 1000

/-! ## Steps -/

/-- What a branch did about one stage, before its sweep. -/
inductive StageStep where
  | attempted (a : Attempt)
  | computed (result : RunResult TimeBudget)
  /-- The stage does not apply. -/
  | passedOver (stage : Stage) (reason : String)
  /-- The test was not run, since its runner is unusable. -/
  | refused (reason : RunError)
  /-- The stage was cut with its branch. -/
  | cut (stage : Stage) (call : CallNote) (stop : Nat)

namespace StageStep

def record : StageStep → StageRecord
  | attempted a => a.record
  | computed result => .ofResult .computeBudget 0 result
  | passedOver stage reason => .skipped stage reason
  | refused reason => .failed .runTest .failed 0 ("runner address unavailable: " ++ reason.message)
  | cut stage call stop => .failed stage .timedOut (stop - call.time) cutText

def stage (step : StageStep) : Stage := step.record.stage

@[simp] theorem stage_attempted (a : Attempt) : (attempted a).stage = a.stage :=
  StageRecord.stage_ofResult a.stage _ a.result

@[simp] theorem stage_computed (result : RunResult TimeBudget) :
    (computed result).stage = .computeBudget :=
  StageRecord.stage_ofResult Stage.computeBudget 0 result

def notes : StageStep → List Note
  | attempted a => a.notes
  | cut _ call _ => [.called call, .dropped call.call]
  | computed _ | passedOver _ _ | refused _ => []

/-- What came of the creation of a runner. -/
def creation? : StageStep → Option (RunResult (Option Network.Address))
  | attempted a => if a.stage = .createRunner then some a.result else none
  | _ => none

/-- The address of a runner that was created. -/
def address? (step : StageStep) : Option Network.Address :=
  match step.creation? with
  | some (.ok address) => address
  | _ => none

def refusal? (step : StageStep) : Option RunError :=
  match step.creation? with
  | some (.error e) => if e.isFatal then some e else none
  | _ => none

/-- What is told when a runner could not be had. -/
def warnings (axis : String) (step : StageStep) : List Event :=
  match step.creation? with
  | some (.error e) =>
    if e.isFatal then [] else [.log .warning "runner unavailable, running locally" (some axis)]
  | _ => []

def events (axis : String) : StageStep → List Event
  | passedOver _ _ => []
  | refused reason => [.stageCompleted axis (refused reason).record]
  | step => [.stageStarted axis step.stage, .stageCompleted axis step.record] ++ step.warnings axis

/-- The terminal stage that was marked. -/
def marked? : StageStep → Option TerminalStage
  | attempted a => a.stage.terminal?
  | _ => none

def isFailure (step : StageStep) : Bool := step.record.status.isFailure

def isCut : StageStep → Bool
  | cut _ _ _ => true
  | _ => false

end StageStep

/-! ## What follows from the steps -/

section Steps

variable (steps : List StageStep)

def runnerAfter : Option Network.Address := steps.findSome? (·.address?)

/-- Where the steps of a branch run. -/
def targetAfter : Target := (runnerAfter steps).elim .here .remote

/-- Why the runner of a branch is unusable. -/
def refusalAfter : Option RunError := steps.findSome? (·.refusal?)

/-- The ledger before the sweep. -/
def ledgerAfter : Ledger := (steps.filterMap (·.marked?)).foldl Ledger.mark Ledger.empty

/-- What is told about the test: a stage failed, terminal stages apart. -/
def buildAfter : BuildResult :=
  if steps.any fun step => step.stage.terminal?.isNone && step.isFailure then .failure else .success

/-- What is told about the test once a branch is swept. -/
def finalBuild : BuildResult :=
  if steps.any (·.isCut) then .aborted
  else if steps.any (·.isFailure) then .failure else .success

end Steps

/-! ### One more step -/

section Snoc

variable {steps : List StageStep}

theorem runnerAfter_snoc (step : StageStep) :
    runnerAfter (steps ++ [step]) = (runnerAfter steps).or step.address? := by
  simp [runnerAfter]

theorem refusalAfter_snoc (step : StageStep) :
    refusalAfter (steps ++ [step]) = (refusalAfter steps).or step.refusal? := by
  simp [refusalAfter]

theorem ledgerAfter_snoc (step : StageStep) :
    ledgerAfter (steps ++ [step]) = step.marked?.toList.foldl Ledger.mark (ledgerAfter steps) := by
  rw [ledgerAfter, List.filterMap_append, List.foldl_append, ledgerAfter]
  cases h : step.marked? <;> simp [h]

theorem targetAfter_snoc_of_none {step : StageStep} (h : step.address? = none) :
    targetAfter (steps ++ [step]) = targetAfter steps := by
  rw [targetAfter, runnerAfter_snoc, h, Option.or_none, targetAfter]

theorem buildAfter_snoc_of_terminal {step : StageStep} (h : step.stage.terminal?.isSome) :
    buildAfter (steps ++ [step]) = buildAfter steps := by
  have hnone : step.stage.terminal?.isNone = false := by
    rw [← Option.not_isSome, h]
    rfl
  simp [buildAfter, hnone]

theorem buildAfter_of_plain (h : ∀ step ∈ steps, step.stage.terminal? = none) :
    buildAfter steps = if steps.any (·.isFailure) then .failure else .success := by
  have hany : (steps.any fun step => step.stage.terminal?.isNone && step.isFailure) =
      steps.any (·.isFailure) := by
    induction steps with
    | nil => rfl
    | cons step rest ih =>
      have hstep := h step List.mem_cons_self
      have hrest := ih fun step hstep => h step (List.mem_cons_of_mem _ hstep)
      rw [List.any_cons, List.any_cons, hrest, hstep, Option.isNone_none, Bool.true_and]
  rw [buildAfter, hany]

theorem StageStep.creation?_attempted {a : Attempt} (h : a.stage ≠ .createRunner) :
    (attempted a).creation? = none := if_neg h

end Snoc

/-! ## States -/

namespace Progress

variable {ω : Type}

/-- Progress with more events, notes and marks. -/
def grown (p : Progress (Noted ω)) (events : List Event) (notes : List Note)
    (marks : List TerminalStage) (world : ω) : Progress (Noted ω) where
  ledger := marks.foldl Ledger.mark p.ledger
  events := p.events ++ events
  world := ⟨world, p.world.notes ++ notes⟩

theorem grown_grown (p : Progress (Noted ω)) (events events' : List Event)
    (notes notes' : List Note) (marks marks' : List TerminalStage) (world world' : ω) :
    (p.grown events notes marks world).grown events' notes' marks' world' =
      p.grown (events ++ events') (notes ++ notes') (marks ++ marks') world' := by
  simp [grown, List.foldl_append]

end Progress

namespace BranchState

variable {ω : Type}

/-- The state of a branch that took some steps. -/
def after (axis testId : String) (steps : List StageStep) (world : ω) : BranchState (Noted ω) where
  progress :=
    { ledger := ledgerAfter steps
      events := .branchStarted axis testId :: steps.flatMap (·.events axis)
      world := ⟨world, steps.flatMap (·.notes)⟩ }
  records := steps.map (·.record)
  target := targetAfter steps
  runner := runnerAfter steps

/-- The state of a branch that was cut in a stage. -/
def cutIn (axis testId : String) (steps : List StageStep) (stage : Stage) (call : CallNote)
    (world : ω) : BranchState (Noted ω) :=
  let s := after axis testId steps world
  { s with
    progress :=
      s.progress.grown [.stageStarted axis stage] [.called call, .dropped call.call] [] world
    inFlight := some (stage, call.time) }

end BranchState

/-! ## Calls -/

section Calls

variable (ctx : BranchContext) (budget : TimeBudget)

def terminalCall (target : Target) (build : BuildResult) (time : Nat) : TerminalStage → CallNote
  | .cleanResources =>
    { call := .cleanResources, time, context := ctx, target := some target
      limit := some (budget.limit .resourceCleanup) }
  | .sendEmail =>
    { call := .sendEmail, time, context := ctx, build := some build
      limit := some (budget.limit .sendEmail) }

def callAfter (steps : List StageStep) (time : Nat) : Stage → Option CallNote
  | .checkout => some { call := .checkout, time, context := ctx }
  | .computeBudget => none
  | .createRunner =>
    if ctx.config.backend.supportsRunner then
      some
        { call := .createRunner, time, context := ctx
          limit := some (budget.limit .runnerProvision) }
    else none
  | .runTest =>
    if (refusalAfter steps).isNone then
      some
        { call := .runTest, time, context := ctx, target := some (targetAfter steps)
          limit := some (budget.limit .testRun) }
    else none
  | .collectLogs =>
    some
      { call := .collectLogs, time, context := ctx, target := some (targetAfter steps)
        limit := some (budget.limit .logCollect) }
  | .cleanResources =>
    some (terminalCall ctx budget (targetAfter steps) (buildAfter steps) time .cleanResources)
  | .sendEmail =>
    some (terminalCall ctx budget (targetAfter steps) (buildAfter steps) time .sendEmail)

theorem time_of_callAfter {ctx : BranchContext} {budget : TimeBudget} {steps : List StageStep}
    {now : Nat} {stage : Stage} {call : CallNote}
    (h : callAfter ctx budget steps now stage = some call) : call.time = now := by
  cases stage <;> grind [callAfter, terminalCall]

end Calls

/-! ## Paths -/

section Paths

variable (ctx : BranchContext) (budget : TimeBudget) (deadline : Option Nat)

/-- After some steps, a stage is got over by a step, and it is a certain time. -/
inductive Takes (steps : List StageStep) (now : Nat) (stage : Stage) : StageStep → Nat → Prop
  | attempted {a : Attempt} {call : CallNote}
      (hcall : callAfter ctx budget steps now stage = some call) (ha : a.IsAt stage call deadline) :
      Takes steps now stage (.attempted a) a.stop
  | passedOver (hstage : stage = .createRunner)
      (hbackend : ctx.config.backend.supportsRunner = false) : Takes steps now stage
        (.passedOver .createRunner
          ("backend " ++ ctx.config.backend.name ++ " runs without a runner"))
        now
  | refused {reason : RunError} (hstage : stage = .runTest)
      (hreason : refusalAfter steps = some reason) : Takes steps now stage (.refused reason) now

/-- After some steps, the deadline cuts a stage. -/
structure Cuts (steps : List StageStep) (now : Nat) (stage : Stage) (call : CallNote) (stop : Nat) :
    Prop where
  hcall : callAfter ctx budget steps now stage = some call
  hdropped : IsDropped call deadline stop

/-- After some steps, stages are got over one after the other. -/
inductive Path : List StageStep → Nat → List Stage → List StageStep → Nat → Prop
  | nil {steps : List StageStep} {now : Nat} : Path steps now [] [] now
  | cons {steps : List StageStep} {now : Nat} {stage : Stage} {rest : List Stage} {step : StageStep}
      {time : Nat} {taken : List StageStep} {last : Nat}
      (htakes : Takes ctx budget deadline steps now stage step time)
      (hrest : Path (steps ++ [step]) time rest taken last) :
      Path steps now (stage :: rest) (step :: taken) last

end Paths

/-! ## Sweeps -/

/-- The archiving of artifacts: what was called, how that ended, and when. -/
structure Archiving where
  call : CallNote
  ending : CallEnding
  stop : Nat

namespace Archiving

def succeeded (a : Archiving) : Bool :=
  match a.ending with
  | .returned (.ok _) => true
  | .returned (.error _) | .expired => false

/-- What went wrong. -/
def errors (budget : TimeBudget) (a : Archiving) : List String :=
  errorsOf "copy_artifacts"
    ((a.ending.result "copy_artifacts" (budget.limit .logCollect)).map fun _ => ())

def notes (a : Archiving) : List Note := .called a.call :: a.ending.returnNotes a.call.call a.stop

end Archiving

/-- The event that tells that a stage was swept. -/
def Attempt.sweepEvent? (axis : String) (a : Attempt) : Option Event :=
  a.stage.terminal?.map fun stage => .sweepInvoked axis stage a.result.toOption.isSome

/-- What went wrong. -/
def Attempt.errors (a : Attempt) : List String := errorsOf a.stage.name (a.result.map fun _ => ())

/-- What a sweep did. -/
structure Swept where
  archiving : Archiving
  attempts : List Attempt

namespace Swept

def notes (s : Swept) : List Note := s.archiving.notes ++ s.attempts.flatMap (·.notes)

def events (axis : String) (s : Swept) : List Event :=
  .artifactsArchived axis s.archiving.succeeded :: s.attempts.filterMap (·.sweepEvent? axis)

def marks (s : Swept) : List TerminalStage := s.attempts.filterMap (·.stage.terminal?)

def records (s : Swept) : List StageRecord := s.attempts.map (·.record)

theorem stage_records (s : Swept) : s.records.map (·.stage) = s.attempts.map (·.stage) := by
  rw [records, List.map_map]
  exact List.map_congr_left fun a _ => a.stage_record

def report (budget : TimeBudget) (s : Swept) : SweepReport where
  artifactsCollected := s.archiving.succeeded
  reinvoked := s.marks
  records := s.records
  errors := s.archiving.errors budget ++ s.attempts.flatMap (·.errors)

end Swept

section Sweeps

variable (ctx : BranchContext) (budget : TimeBudget) (target : Target) (build : BuildResult)

/-- Artifacts are archived, within the allotment of log collection. -/
structure Archives (destination : String) (now : Nat) (a : Archiving) : Prop where
  hcall : a.call =
    { call := .copyArtifacts, time := now, context := ctx, target := some target
      destination := some destination }
  hstarted : now ≤ a.stop
  hstop : a.stop ≤ now + budget.limit .logCollect * 1000
  hexpired : a.ending = .expired → a.stop = now + budget.limit .logCollect * 1000

/-- Terminal stages are attempted one after the other. -/
inductive Sweeps : Nat → List TerminalStage → List Attempt → Nat → Prop
  | nil {now : Nat} : Sweeps now [] [] now
  | cons {now : Nat} {stage : TerminalStage} {rest : List TerminalStage} {a : Attempt}
      {attempts : List Attempt} {last : Nat}
      (ha : a.IsAt stage.toStage (terminalCall ctx budget target build now stage) none)
      (hrest : Sweeps a.stop rest attempts last) :
      Sweeps now (stage :: rest) (a :: attempts) last

end Sweeps

/-! ## Courses -/

/-- The stages that are run under the branch limit. -/
def mainSequence : List Stage :=
  [.createRunner, .runTest, .collectLogs, .cleanResources, .sendEmail]

/-- The attempt at checkout, which is the first call and is given no limit. -/
def checkoutAttempt (ctx : BranchContext) (answer : RunResult Unit) (stop : Nat) : Attempt where
  stage := .checkout
  call := { call := .checkout, time := 0, context := ctx }
  ending := .returned (answer.map fun _ => none)
  stop := stop

/-- What a branch whose budget is accepted did before its main stages. -/
def preparation (ctx : BranchContext) (answer : RunResult Unit) (stop : Nat) (budget : TimeBudget) :
    List StageStep :=
  [.attempted (checkoutAttempt ctx answer stop), .computed (.ok budget)]

/-- What a branch can do after its preparation and before its sweep, with or without a workspace. -/
inductive MainCourse (ctx : BranchContext) (budget : TimeBudget) (limit : Nat)
    (before : List StageStep) (now : Nat) : Bool → List StageStep → Nat → Prop
  | complete {taken : List StageStep} {last : Nat}
      (hpath : Path ctx budget (some (now + limit)) before now mainSequence taken last) :
      MainCourse ctx budget limit before now true taken last
  | cut {early late : List Stage} {stage : Stage} {taken : List StageStep} {time : Nat}
      {call : CallNote} {stop : Nat} (hsequence : mainSequence = early ++ stage :: late)
      (hpath : Path ctx budget (some (now + limit)) before now early taken time)
      (hcuts : Cuts ctx budget (some (now + limit)) (before ++ taken) time stage call stop) :
      MainCourse ctx budget limit before now true (taken ++ [.cut stage call stop]) stop
  | noWorkspace :
      MainCourse ctx budget limit before now false
        (stagesOnWorkspace.map (.passedOver · "checkout failed")) now

/-- What a branch can do after its preparation, up to its end. -/
inductive FinalCourse (ctx : BranchContext) (budget : TimeBudget) (limit : Nat)
    (before : List StageStep) (now : Nat) (checkedOut : Bool) : List StageStep → Swept → Nat → Prop
  | intro {taken : List StageStep} {time : Nat} {swept : Swept} {last : Nat}
      (hmain : MainCourse ctx budget limit before now checkedOut taken time)
      (harchives : Archives ctx budget (targetAfter (before ++ taken))
        (Path.join ctx.workdir artifactsDir) time swept.archiving)
      (hsweeps : Sweeps ctx budget (targetAfter (before ++ taken)) (finalBuild (before ++ taken))
        swept.archiving.stop (ledgerAfter (before ++ taken)).missing swept.attempts last) :
      FinalCourse ctx budget limit before now checkedOut (before ++ taken) swept last

/-- What a plan can lead to: the steps before the sweep, what was swept or why the branch ended
before it was finalized, and when it was over. -/
inductive Course (plan : BranchPlan) (policy : SelectorPolicy) (limit : Option Nat) :
    List StageStep → RunResult Swept → Nat → Prop
  | unresolved {e : RunError} (hresolve : plan.params.resolve policy = .error e) :
      Course plan policy limit [] (.error e) 0
  | noCheckout {config : RunConfiguration} {e : RunError} {stop : Nat}
      (hresolve : plan.params.resolve policy = .ok config) (hfatal : e.isFatal = true) :
      Course plan policy limit [.attempted (checkoutAttempt (plan.context config) (.error e) stop)]
        (.error e) stop
  | noBudget {config : RunConfiguration} {answer : RunResult Unit} {stop : Nat} {e : RunError}
      (hresolve : plan.params.resolve policy = .ok config)
      (hcheckout : ∀ e, answer = .error e → e.isFatal = false)
      (hbudget :
        TimeBudget.compute config.durationMinutes config.backend config.region = .error e) :
      Course plan policy limit
        [.attempted (checkoutAttempt (plan.context config) answer stop), .computed (.error e)]
        (.error e) stop
  | finalized {config : RunConfiguration} {answer : RunResult Unit} {stop : Nat}
      {budget : TimeBudget} {steps : List StageStep} {swept : Swept} {last : Nat}
      (hresolve : plan.params.resolve policy = .ok config)
      (hcheckout : ∀ e, answer = .error e → e.isFatal = false)
      (hbudget :
        TimeBudget.compute config.durationMinutes config.backend config.region = .ok budget)
      (hfinal : FinalCourse (plan.context config) budget (limit.getD (budget.branchLimit * 1000))
        (preparation (plan.context config) answer stop budget) stop answer.toOption.isSome
        steps swept last) :
      Course plan policy limit steps (.ok swept) last

/-! ## Outcomes -/

/-- The ledger of a branch that is over. -/
def finalLedger (steps : List StageStep) : RunResult Swept → Ledger
  | .ok swept => swept.marks.foldl Ledger.mark (ledgerAfter steps)
  | .error _ => ledgerAfter steps

/-- What a branch came to. -/
def outcomeOf (plan : BranchPlan) (steps : List StageStep) (swept : RunResult Swept) (time : Nat) :
    BranchOutcome where
  axis := plan.axis
  testId := plan.testId
  status := match swept with
    | .ok _ => finalStatus (steps.any (·.isFailure)) (finalLedger steps swept)
    | .error _ => .failed
  stages := steps.map (·.record) ++ match swept with
    | .ok swept => swept.records
    | .error _ => []
  ledger := finalLedger steps swept
  artifactsCollected := match swept with
    | .ok swept => swept.archiving.succeeded
    | .error _ => false
  runner := runnerAfter steps
  error := match swept with
    | .ok _ => none
    | .error e => some e.message
  duration := time

def notesOf (steps : List StageStep) : RunResult Swept → List Note
  | .ok swept => steps.flatMap (·.notes) ++ swept.notes
  | .error _ => steps.flatMap (·.notes)

/-- What a branch told. -/
def eventsOf (plan : BranchPlan) (steps : List StageStep) (swept : RunResult Swept) (time : Nat) :
    List Event :=
  .branchStarted plan.axis plan.testId :: steps.flatMap (·.events plan.axis) ++
    (match swept with
      | .ok swept => swept.events plan.axis
      | .error e => [.log .error e.message (some plan.axis)]) ++
    [.branchCompleted plan.axis (outcomeOf plan steps swept time).status time]

end Stagehand
