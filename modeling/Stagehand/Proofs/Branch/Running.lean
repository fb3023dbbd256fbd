import Stagehand.Proofs.Branch.Erasure
import Stagehand.Proofs.Branch.Sweeping

/-!
# A branch follows its history

Whatever its collaborators answer and however long they take, a branch whose collaborators never
break down comes to an end, by one of the courses that its plan can lead to; all that it leaves
and tells, and all that is noted of its calls, is read off its history.

Main result: `BranchPlan.exists_course`.
-/

namespace Stagehand

open Rehearsal (Call CallNote)
open Timed BranchState

variable {ω : Type} {c : Collaborators ω} {ctx : BranchContext} {budget : TimeBudget}
  {steps : List StageStep} {now : Nat} {world : ω}

/-! ## The end -/

namespace BranchState

/-- The state of a branch that was swept. -/
def swept (axis testId : String) (steps : List StageStep) (swept : Swept) (world : ω) :
    BranchState (Noted ω) :=
  let s := after axis testId steps world
  { s with
    progress := s.progress.grown (swept.events axis) swept.notes swept.marks world
    records := s.records ++ swept.records }

end BranchState

theorem StageStep.isFailure_of_isCut {step : StageStep} (h : step.isCut = true) :
    step.isFailure = true := by
  cases step with
  | cut => rfl
  | attempted | computed | passedOver | refused => cases h

theorem any_isCut_or_isFailure (steps : List StageStep) :
    (steps.any (·.isCut) || steps.any (·.isFailure)) = steps.any (·.isFailure) := by
  rw [Bool.or_eq_right_iff_imp, List.any_eq_true, List.any_eq_true]
  rintro ⟨step, hstep, hcut⟩
  exact ⟨step, hstep, StageStep.isFailure_of_isCut hcut⟩

theorem reaches_finish (hc : c.Unbreaking) :
    (finish c.noted ctx budget (steps.any (·.isCut))).Reaches none now
      (after ctx.axis ctx.testId steps world)
      (fun r time s => ∃ (swept : Swept) (world : ω),
        Archives ctx budget (targetAfter steps) (Path.join ctx.workdir artifactsDir) now
          swept.archiving ∧
        Sweeps ctx budget (targetAfter steps) (finalBuild steps) swept.archiving.stop
          (ledgerAfter steps).missing swept.attempts time ∧
        r = (swept.archiving.succeeded, steps.any (·.isFailure)) ∧
        s = BranchState.swept ctx.axis ctx.testId steps swept world)
      (fun _ _ => False) := by
  simp only [finish, reaches_bind, reaches_get, reaches_modify, reaches_pure, onProgress,
    reaches_onPart isPart_progress, anyFailed_after, any_isCut_or_isFailure]
  refine (reaches_sweep hc).mono ?_ fun _ _ h => h
  rintro _ time _ ⟨swept, world, harchives, hsweeps, rfl, rfl⟩
  exact ⟨swept, world, harchives, hsweeps, rfl, rfl⟩

/-! ## The beginning -/

def checkoutCall (ctx : BranchContext) : CallNote :=
  { call := .checkout, time := 0, context := ctx }

/-- A branch whose checkout does not come to an end. -/
def AwaitsCheckout (c : Collaborators ω) (ctx : BranchContext) (world : ω)
    (s : BranchState (Noted ω)) : Prop :=
  ((c.checkout ctx).runUnder none 0 world).ending = .cut ∧
    s.progress.world.notes = [.called (checkoutCall ctx)]

/-- Checkout is the first step, if it comes to an end. -/
theorem reaches_checkout (hc : c.Unbreaking) :
    (attempt ctx.axis .checkout (outside (c.noted.checkout ctx))).Reaches none 0
      (after ctx.axis ctx.testId [] world)
      (fun answer stop s => ∃ world, s = after ctx.axis ctx.testId
        [.attempted (checkoutAttempt ctx answer stop)] world)
      (fun _ => AwaitsCheckout c ctx world) := by
  rw [reaches_attempt, outside, onProgress, reaches_onPart isPart_progress, Progress.outside,
    reaches_onPart Progress.isPart_world]
  refine reaches_noting_of_unbroken (hc.checkout ctx) rfl (fun answer stop world => ⟨world, ?_⟩)
    fun _ _ hcut => ⟨hcut, rfl⟩
  have hrecord : StageRecord.ofResult .checkout stop answer =
      (checkoutAttempt ctx answer stop).record :=
    (StageRecord.ofResult_map Stage.checkout stop (fun _ => none) answer).symm
  have hstage : (checkoutAttempt ctx answer stop).stage = .checkout := rfl
  have hnotes : (checkoutAttempt ctx answer stop).notes =
      [.called { call := .checkout, time := 0, context := ctx },
        .returned .checkout (answer.map fun _ => none) stop] := rfl
  have hne : (checkoutAttempt ctx answer stop).stage ≠ .createRunner := by
    rw [hstage]
    decide
  rw [← List.nil_append [StageStep.attempted (checkoutAttempt ctx answer stop)],
    after_attempted_of_ne hne]
  simp [concluded, begun, attempting, after, Progress.grown, hrecord, hstage, hnotes,
    Stage.terminal?]

/-- The budget is the second step, and takes no time. -/
theorem reaches_computeBudget (result : RunResult TimeBudget) :
    (attempt ctx.axis .computeBudget (pure result)).Reaches none now
      (after ctx.axis ctx.testId steps world)
      (fun r time s => r = result ∧ time = now ∧
        s = after ctx.axis ctx.testId (steps ++ [.computed result]) world)
      (fun _ _ => False) := by
  rw [reaches_attempt, reaches_pure]
  refine ⟨rfl, rfl, ?_⟩
  rw [after_snoc_of_none rfl rfl]
  simp [concluded, begun, after, Progress.grown, StageStep.events, StageStep.notes,
    StageStep.record, StageStep.warnings, StageStep.creation?, StageStep.stage]

theorem terminal?_preparation {answer : RunResult Unit} {stop : Nat} :
    ∀ step ∈ preparation ctx answer stop budget, step.stage.terminal? = none := by
  simp only [preparation, List.mem_cons, List.not_mem_nil, or_false]
  rintro step (rfl | rfl)
  · rw [StageStep.stage_attempted]
    rfl
  · rfl

/-! ## The whole -/

/-- The state of a branch that is over, before it tells so. -/
def stateOf (plan : BranchPlan) (steps : List StageStep) (swept : RunResult Swept) (world : ω) :
    BranchState (Noted ω) :=
  match swept with
  | .ok swept => BranchState.swept plan.axis plan.testId steps swept world
  | .error _ => after plan.axis plan.testId steps world

/-- A branch that stands at its course's end. -/
def Concluded (plan : BranchPlan) (policy : SelectorPolicy) (limit : Option Nat)
    (r : RunResult (Bool × Bool)) (last : Nat) (s : BranchState (Noted ω)) : Prop :=
  ∃ steps swept world, Course plan policy limit steps swept last ∧
    r = swept.map (fun swept => (swept.archiving.succeeded, steps.any (·.isFailure))) ∧
    s = stateOf plan steps swept world

theorem reaches_budgeted (hc : c.Unbreaking) {plan : BranchPlan} {policy : SelectorPolicy}
    {limit : Option Nat} {config : RunConfiguration} (answer : RunResult Unit) {stop : Nat}
    (hresolve : plan.params.resolve policy = .ok config)
    (hcheckout : ∀ e, answer = .error e → e.isFatal = false) :
    (runStages.budgeted c.noted limit (plan.context config) answer.toOption.isSome).Reaches
      none stop
      (after plan.axis plan.testId
        [.attempted (checkoutAttempt (plan.context config) answer stop)] world)
      (Concluded plan policy limit) (fun _ _ => False) := by
  rw [runStages.budgeted, reaches_bind]
  refine (reaches_computeBudget _).mono ?_ fun _ _ h => h
  rintro _ stop _ ⟨rfl, rfl, rfl⟩
  cases hbudget : TimeBudget.compute (plan.context config).config.durationMinutes
      (plan.context config).config.backend (plan.context config).config.region with
  | error e =>
    rw [reaches_pure]
    exact ⟨_, .error e, world, .noBudget hresolve hcheckout hbudget, rfl, rfl⟩
  | ok budget =>
    simp only [reaches_bind]
    refine (reaches_mainStages hc (plan.context config) rfl rfl terminal?_preparation _ _).mono ?_
      fun _ _ h => h
    rintro _ time _ ⟨taken, world, hmain, rfl, rfl⟩
    have hcut : taken.any (·.isCut) =
        (preparation (plan.context config) answer stop budget ++ taken).any (·.isCut) := by
      rw [List.any_append]
      rfl
    rw [hcut]
    refine (reaches_finish hc).mono ?_ fun _ _ h => h
    rintro _ last _ ⟨swept, world, harchives, hsweeps, rfl, rfl⟩
    rw [reaches_pure]
    exact ⟨_, .ok swept, world,
      .finalized hresolve hcheckout hbudget (.intro hmain harchives hsweeps), rfl, rfl⟩

theorem reaches_runStages (hc : c.Unbreaking) (plan : BranchPlan) (policy : SelectorPolicy)
    (limit : Option Nat) (world : ω) :
    (runStages c.noted policy limit plan).Reaches none 0 (after plan.axis plan.testId [] world)
      (Concluded plan policy limit) (fun _ s => ∃ config, plan.params.resolve policy = .ok config ∧
        AwaitsCheckout c (plan.context config) world s) := by
  rw [runStages]
  cases hresolve : plan.params.resolve policy with
  | error e =>
    dsimp only
    rw [reaches_pure]
    exact ⟨[], .error e, world, .unresolved hresolve, rfl, rfl⟩
  | ok config =>
    simp only [reaches_bind]
    refine (reaches_checkout hc).mono ?_ fun _ _ h => ⟨config, rfl, h⟩
    rintro answer stop _ ⟨world, rfl⟩
    cases answer with
    | ok =>
      exact (reaches_budgeted hc (.ok ()) hresolve (by simp)).mono (fun _ _ _ h => h)
        fun _ _ h => h.elim
    | error e =>
      dsimp only
      -- A fatal failure ends the branch; after any other it goes on without a workspace.
      by_cases hfatal : e.isFatal = true
      · rw [if_pos hfatal, reaches_pure]
        exact ⟨_, .error e, world, .noCheckout hresolve hfatal, rfl, rfl⟩
      · rw [if_neg hfatal]
        refine (reaches_budgeted hc (.error e) hresolve ?_).mono (fun _ _ _ h => h)
          fun _ _ h => h.elim
        rintro _ ⟨rfl⟩
        exact Bool.eq_false_iff.2 hfatal

/-- What an observer of a run notes of its calls. -/
def BranchPlan.notes (plan : BranchPlan) (c : Collaborators ω) (policy : SelectorPolicy)
    (limit : Option Nat) (world : ω) : List Note :=
  (plan.runWithin c.noted policy limit ⟨world, []⟩).state.progress.world.notes

/-- A run follows a course: it comes to the end of it, and what it leaves, tells and has noted of it
is read off the course. -/
structure BranchPlan.Follows (plan : BranchPlan) (c : Collaborators ω) (policy : SelectorPolicy)
    (limit : Option Nat) (world : ω) (steps : List StageStep) (swept : RunResult Swept)
    (last : Nat) :
    Prop where
  course : Course plan policy limit steps swept last
  ending : (plan.runWithin c policy limit world).ending = .done (outcomeOf plan steps swept last)
  time : (plan.runWithin c policy limit world).time = last
  events :
    (plan.runWithin c policy limit world).state.progress.events = eventsOf plan steps swept last
  notes : plan.notes c policy limit world = notesOf steps swept

/-- The run of a plan waits for its checkout, which does not come to an end. -/
structure BranchPlan.Awaits (plan : BranchPlan) (c : Collaborators ω) (policy : SelectorPolicy)
    (limit : Option Nat) (world : ω) (config : RunConfiguration) : Prop where
  resolve : plan.params.resolve policy = .ok config
  checkout : ((c.checkout (plan.context config)).runUnder none 0 world).ending = .cut
  ending : (plan.runWithin c policy limit world).ending = .cut
  notes : plan.notes c policy limit world = [.called (checkoutCall (plan.context config))]

/-- **A branch follows its history**: it comes to an end by a course that its plan can lead to, or
waits for its checkout without end. -/
theorem BranchPlan.exists_course_or_awaits (hc : c.Unbreaking) (plan : BranchPlan)
    (policy : SelectorPolicy) (limit : Option Nat) (world : ω) :
    (∃ steps swept last, plan.Follows c policy limit world steps swept last) ∨
      ∃ config, plan.Awaits c policy limit world config := by
  have hrun : (runBranch c.noted policy limit plan).Reaches none 0
      { progress := { world := ⟨world, []⟩ } }
      (fun o last s => ∃ steps swept, Course plan policy limit steps swept last ∧
        o = outcomeOf plan steps swept last ∧ s.progress.events = eventsOf plan steps swept last ∧
        s.progress.world.notes = notesOf steps swept)
      (fun _ s => ∃ config, plan.params.resolve policy = .ok config ∧
        AwaitsCheckout c (plan.context config) world s) := by
    simp only [runBranch, reaches_bind, reaches_now, reaches_tell]
    refine (reaches_runStages hc plan policy limit world).mono ?_ fun _ _ h => h
    rintro _ last _ ⟨steps, swept, world, hcourse, rfl, rfl⟩
    cases swept with
    | error e =>
      simp only [Except.map, reaches_bind, reaches_get, reaches_now, reaches_tell, reaches_pure]
      exact ⟨steps, .error e, hcourse, by simp [outcomeOf, stateOf, after, finalLedger],
        by simp [eventsOf, outcomeOf, stateOf, after], rfl⟩
    | ok swept =>
      simp only [Except.map, reaches_bind, reaches_get, reaches_now, reaches_tell, reaches_pure]
      exact ⟨steps, .ok swept, hcourse,
        by simp [outcomeOf, stateOf, BranchState.swept, after, finalLedger, Progress.grown],
        by simp [eventsOf, outcomeOf, stateOf, BranchState.swept, after, finalLedger,
          Progress.grown],
        rfl⟩
  -- What was said so far is of the observed branch; without its notes it is the branch itself.
  have herase := plan.runWithin_erase c policy limit world
  obtain ⟨o, hending, steps, swept, hcourse, rfl, hevents, hnotes⟩ |
    ⟨hending, config, hresolve, hcheckout, hnotes⟩ := hrun.ends
  · exact .inl ⟨steps, swept, _, hcourse, herase ▸ hending, herase ▸ rfl, herase ▸ hevents, hnotes⟩
  · exact .inr ⟨config, hresolve, hcheckout, herase ▸ hending, hnotes⟩

/-- A branch whose checkout comes to an end does so too, by a course that its plan can lead to. -/
theorem BranchPlan.exists_course (hc : c.Dependable) (plan : BranchPlan) (policy : SelectorPolicy)
    (limit : Option Nat) (world : ω) :
    ∃ steps swept last, plan.Follows c policy limit world steps swept last := by
  obtain hcourse | ⟨config, hawaits⟩ :=
    plan.exists_course_or_awaits hc.unbreaking policy limit world
  · exact hcourse
  · obtain ⟨answer, hanswer⟩ := hc.checkout (plan.context config) 0 world
    rw [hawaits.checkout] at hanswer
    cases hanswer

end Stagehand
