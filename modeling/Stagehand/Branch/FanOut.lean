import Stagehand.Branch.Sequence

/-!
# Running several branches

One branch is run per axis value. The values of a run are told apart first, in the order in which
they come; then each is handed its plan, which is the first of those with that value. Branches start
together and go on side by side, and share one world. The run takes as long as its longest branch.

A branch that breaks down is a failed branch of the run. Its error is told by its first words only
(`brokenText`): how a task names what it broke down of is left out.
-/

namespace Stagehand

variable {ω : Type}

/-! ## Who runs what -/

/-- The names that are not among those seen, each once, in the order in which they come. -/
def distinctNames (seen : List String) : List String → List String
  | [] => []
  | name :: rest =>
    if seen.contains name then distinctNames seen rest
    else name :: distinctNames (name :: seen) rest

/-- Plans by axis value; of several plans with one value the first is kept. -/
def plansByAxis (plans : List BranchPlan) : NameMap BranchPlan :=
  plans.foldl (fun m p => if m.contains p.axis then m else m.insert p.axis p) .empty

/-- Hands each axis value its plan, which is taken out of the map. -/
def handOut (m : NameMap BranchPlan) : List String → List (String × Option BranchPlan)
  | [] => []
  | axis :: rest => (axis, m.get? axis) :: handOut (m.erase axis) rest

/-- The axis values of a run, each with its plan. -/
def assignments (plans : List BranchPlan) : List (String × Option BranchPlan) :=
  handOut (plansByAxis plans) (distinctNames [] (plans.map (·.axis)))

/-! ## What branches come to -/

/-- The error of a branch that broke down, without the cause that is told behind it. -/
def brokenText : String := "branch task did not complete"

/-- The error of an axis value without a plan. -/
def unplannedText : String := "no plan for axis"

/-- What an ended branch came to. -/
def Ended.outcome {σ : Type} (axis : String) (e : Ended σ BranchOutcome) : BranchOutcome :=
  match e.ending with
  | .done o => o
  | .cut | .broken => BranchOutcome.failed axis brokenText

/-- A run of several branches, with how each ended. -/
structure FanOut (ω : Type) where
  /-- How many branches were announced when it started. -/
  announced : Nat
  summary : RunSummary
  branches : List (String × Ended (BranchState ω) BranchOutcome)

namespace FanOut

/-- What an axis value came to; without a plan it has no branch that could have ended. -/
def outcomeOf (axis : String) : Option (Ended (BranchState ω) BranchOutcome) → BranchOutcome
  | some e => e.outcome axis
  | none => BranchOutcome.failed axis unplannedText

/-- The run of some axis values whose branches have ended. -/
def ofBranches (branches : List (String × Option (Ended (BranchState ω) BranchOutcome))) :
    FanOut ω where
  announced := branches.length
  summary := RunSummary.ofBranches
    (NameMap.ofList (branches.map fun b => (b.1, outcomeOf b.1 b.2)))
    ((branches.filterMap fun b => b.2.map (·.time)).foldl max 0)
  branches := branches.filterMap fun b => b.2.map fun e => (b.1, e)

/-- The task of an axis value, which shares its world with others. A branch that breaks down
ends its task. -/
def task (run : BranchPlan → Timed (BranchState ω) BranchOutcome) :
    Option BranchPlan → Timed ω (Option (Ended (BranchState ω) BranchOutcome))
  | some p => do
    let world ← Timed.get
    -- Of the state of a branch, only its world is shared with the other tasks.
    let ended ← (run p).carrying (·.progress.world)
      (fun world s => { s with progress := { s.progress with world } }) { progress := { world } }
    return some ended
  | none => pure none

/-- The tasks of a run, one per axis value. -/
def tasks (run : BranchPlan → Timed (BranchState ω) BranchOutcome) (plans : List BranchPlan) :
    List (Timed ω (Option (Ended (BranchState ω) BranchOutcome))) :=
  (assignments plans).map fun b => task run b.2

/-- The run that tasks came to. No task breaks down itself. -/
def gathered (plans : List BranchPlan)
    (answers : List (Option (Option (Ended (BranchState ω) BranchOutcome)))) : FanOut ω :=
  ofBranches (((assignments plans).map (·.1)).zip (answers.map (·.join)))

/-- The activity of plans that share a world, side by side. -/
def activity (run : BranchPlan → Timed (BranchState ω) BranchOutcome) (plans : List BranchPlan) :
    Timed ω (FanOut ω) := do
  let answers ← Timed.together (tasks run plans)
  return gathered plans answers

/-- What the run told, one branch after the other. -/
def events (r : FanOut ω) : List Event :=
  .runStarted r.announced :: r.branches.flatMap (fun b => b.2.state.progress.events) ++
    [.runCompleted r.summary.overall r.summary.duration]

end FanOut

end Stagehand
