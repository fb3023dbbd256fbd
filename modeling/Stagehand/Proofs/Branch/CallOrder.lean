import Stagehand.Proofs.Branch.Calls

/-!
# The order of calls

No failure suppresses a later stage. The calls of a branch that is not cut follow from its
backend, from what checkout answered, and from whether the creation of a runner failed fatally;
what any other call answers, or whether it answers at all, changes nothing.

Main result: `BranchPlan.calls_eq_callSequence`.
-/

namespace Stagehand

open Rehearsal (Call CallNote)

/-! ## Refusals -/

/-- The note tells that a runner is unusable. -/
def Note.isRefusal : Note → Bool
  | .returned .createRunner (.error e) _ => e.isFatal
  | _ => false

theorem Note.isRefusal_of_ne {ending : CallEnding} {call : Call} {time : Nat}
    (h : call ≠ .createRunner) : (ending.note call time).isRefusal = false := by
  cases ending with
  | expired => rfl
  | returned answer =>
    cases call <;> first | rfl | exact absurd rfl h

theorem Stage.createRunner_iff {stage : Stage} {call : Call} (h : stage.call? = some call) :
    call = .createRunner ↔ stage = .createRunner := by
  cases stage <;> cases h <;> simp

/-- A step tells that a runner is unusable exactly if a note does. -/
theorem StageStep.Fits.any_isRefusal {step : StageStep} (h : step.Fits) :
    step.notes.any (·.isRefusal) = step.refusal?.isSome := by
  cases step with
  | attempted a =>
    have hcall : a.stage.call? = some a.call.call := h
    rw [StageStep.notes, Attempt.notes, List.any_cons, List.any_cons, List.any_nil, Bool.or_false]
    by_cases hstage : a.stage = .createRunner
    · have hname := (Stage.createRunner_iff hcall).2 hstage
      rw [StageStep.refusal?, StageStep.creation?, if_pos hstage, Attempt.result, hname]
      cases a.ending with
      | expired => rfl
      | returned answer =>
        cases answer with
        | ok => rfl
        | error e => cases hfatal : e.isFatal <;> simp [CallEnding.note, Note.isRefusal,
            CallEnding.result, hfatal]
    · have hne := mt (Stage.createRunner_iff hcall).1 hstage
      rw [Note.isRefusal_of_ne hne, StageStep.refusal?, StageStep.creation?_attempted hstage]
      rfl
  | cut | computed | passedOver | refused => rfl

theorem any_isRefusal_steps {steps : List StageStep} (h : ∀ step ∈ steps, step.Fits) :
    (steps.flatMap (·.notes)).any (·.isRefusal) = (refusalAfter steps).isSome := by
  induction steps with
  | nil => rfl
  | cons step rest ih =>
    have hrest := ih fun step hstep => h step (List.mem_cons_of_mem _ hstep)
    have hstep := (h step List.mem_cons_self).any_isRefusal
    rw [List.flatMap_cons, List.any_append, hrest, hstep]
    unfold refusalAfter
    rw [List.findSome?_cons]
    cases step.refusal? <;> rfl

section Courses

variable {ctx : BranchContext} {budget : TimeBudget} {deadline : Option Nat}
  {before taken : List StageStep} {now last : Nat} {target : Target} {build : BuildResult}

theorem Sweeps.any_isRefusal {stages : List TerminalStage} {attempts : List Attempt}
    (h : Sweeps ctx budget target build now stages attempts last) :
    (attempts.flatMap (·.notes)).any (·.isRefusal) = false := by
  induction h with
  | nil => rfl
  | @cons _ stage _ a _ _ ha _ ih =>
    have hne : a.call.call ≠ .createRunner := by
      rw [ha.hcall, call_terminalCall]
      cases stage <;> decide
    rw [List.flatMap_cons, List.any_append, ih, Bool.or_false, Attempt.notes, List.any_cons,
      List.any_cons, List.any_nil, Note.isRefusal_of_ne hne]
    rfl

theorem Archives.any_isRefusal {destination : String} {a : Archiving}
    (h : Archives ctx budget target destination now a) : a.notes.any (·.isRefusal) = false := by
  rw [Archiving.notes, h.hcall]
  cases a.ending <;> rfl

/-! ## The main sequence -/

/-- The calls of the main sequence, if it is not cut. -/
def mainCalls (backend : Backend) (unusable : Bool) : List Call :=
  (if backend.supportsRunner then [.createRunner] else []) ++
    (if unusable then [] else [.runTest]) ++ [.collectLogs, .cleanResources, .sendEmail]

theorem Takes.refusal?_eq_none {stage : Stage} {step : StageStep} {time : Nat}
    (h : Takes ctx budget deadline before now stage step time) (hstage : stage ≠ .createRunner) :
    step.refusal? = none := by
  cases h with
  | attempted _ ha =>
    rw [StageStep.refusal?, StageStep.creation?_attempted (ha.hstage ▸ hstage)]
  | passedOver => rfl
  | refused => rfl

/-- Once the creation of a runner is past, nothing makes it unusable. -/
theorem Path.refusalAfter_eq {stages : List Stage}
    (h : Path ctx budget deadline before now stages taken last)
    (hstages : .createRunner ∉ stages) : refusalAfter (before ++ taken) = refusalAfter before := by
  induction h with
  | nil => rw [List.append_nil]
  | cons htakes _ ih =>
    rw [List.mem_cons, not_or] at hstages
    rw [List.append_cons, ih hstages.2, refusalAfter_snoc,
      htakes.refusal?_eq_none (Ne.symm hstages.1), Option.or_none]

/-- Stages whose call is due whatever came before are all called. -/
theorem Path.callsOf_of_due {stages : List Stage}
    (h : Path ctx budget deadline before now stages taken last)
    (hdue : ∀ stage ∈ stages, ∀ steps now,
      (callAfter ctx budget steps now stage).map (·.call) = stage.call?) :
    callsOf (taken.flatMap (·.notes)) = stages.filterMap (·.call?) := by
  induction h with
  | nil => rfl
  | cons htakes _ ih =>
    have hstage := hdue _ List.mem_cons_self
    have hrest := ih fun stage hstage => hdue stage (List.mem_cons_of_mem _ hstage)
    rw [List.flatMap_cons, callsOf_append, htakes.callsOf_notes, hrest, hstage, List.filterMap_cons]
    split <;> simp_all

/-- Only the creation of a runner can spare a later call, that of the test. -/
theorem Path.callsOf_mainSequence
    (h : Path ctx budget deadline before now mainSequence taken last) :
    callsOf (taken.flatMap (·.notes)) =
      mainCalls ctx.config.backend (refusalAfter (before ++ taken)).isSome := by
  cases h with
  | @cons _ _ _ _ created time _ _ hcreated h =>
  have hrefusal := h.refusalAfter_eq (by decide)
  rw [← List.append_cons] at hrefusal
  cases h with
  | @cons _ _ _ _ tested _ _ _ htested h =>
  have hlater := h.callsOf_of_due (by simp [callAfter, terminalCall, Stage.call?])
  have hrunner : (callAfter ctx budget before now .createRunner).map (·.call) =
      if ctx.config.backend.supportsRunner then some .createRunner else none := by
    rw [callAfter]
    split <;> rfl
  have htest : (callAfter ctx budget (before ++ [created]) time .runTest).map (·.call) =
      if (refusalAfter (before ++ [created])).isSome then none else some .runTest := by
    rw [callAfter]
    cases refusalAfter (before ++ [created]) <;> rfl
  rw [List.flatMap_cons, List.flatMap_cons, callsOf_append, callsOf_append, hlater,
    hcreated.callsOf_notes, htested.callsOf_notes, hrunner, htest, mainCalls, hrefusal]
  split <;> split <;> rfl

end Courses

/-! ## The branch -/

/-- The calls of a branch whose duration is accepted, if it is not cut. -/
def callSequence (backend : Backend) (unusable : Bool) : RunResult Unit → List Call
  | .ok () => .checkout :: mainCalls backend unusable ++ [.copyArtifacts]
  | .error e =>
    if e.isFatal then [.checkout] else [.checkout, .copyArtifacts, .cleanResources, .sendEmail]

section Courses

variable {ctx : BranchContext} {budget : TimeBudget} {limit : Nat} {checkedOut : Bool}
  {steps : List StageStep} {now stop last : Nat} {answer : RunResult Unit} {swept : Swept}

theorem FinalCourse.any_isRefusal {before : List StageStep}
    (h : FinalCourse ctx budget limit before now checkedOut steps swept last)
    (hfits : ∀ step ∈ steps, step.Fits) :
    (notesOf steps (.ok swept)).any (·.isRefusal) = (refusalAfter steps).isSome := by
  cases h with
  | intro _ harchives hsweeps =>
    rw [notesOf, List.any_append, any_isRefusal_steps hfits, Swept.notes, List.any_append,
      harchives.any_isRefusal, hsweeps.any_isRefusal, Bool.or_false, Bool.or_false]

theorem FinalCourse.callsOf_notes (h : FinalCourse ctx budget limit
    (preparation ctx answer stop budget) now answer.toOption.isSome steps swept last)
    (hanswer : ∀ e, answer = .error e → e.isFatal = false)
    (huncut : dropsOf (notesOf steps (.ok swept)) = []) :
    callsOf (notesOf steps (.ok swept)) =
      callSequence ctx.config.backend ((notesOf steps (.ok swept)).any (·.isRefusal)) answer := by
  have hfits := h.fits
  have hdrops : dropsOf (steps.flatMap (·.notes)) = [] := by
    rw [notesOf, dropsOf_append] at huncut
    exact (List.append_eq_nil_iff.1 huncut).1
  rw [h.any_isRefusal hfits, notesOf, callsOf_append, h.callsOf_swept]
  cases answer with
  | ok =>
    cases h with
    | @intro taken _ _ _ hmain _ _ =>
      cases hmain with
      | complete hpath =>
        have hmain := hpath.callsOf_mainSequence
        -- No call was dropped, so both terminal stages have finished and nothing is missing.
        have hcalls : ∀ stage : TerminalStage, stage.call ∈
            callsOf ((preparation ctx (.ok ()) stop budget ++ taken).flatMap (·.notes)) := by
          intro stage
          rw [List.flatMap_append, callsOf_append, hmain, mainCalls]
          cases stage <;> simp [TerminalStage.call]
        have hmissing :
            (ledgerAfter (preparation ctx (.ok ()) stop budget ++ taken)).missing = [] := by
          rw [List.eq_nil_iff_forall_not_mem]
          intro stage hstage
          have hcomplete := (isComplete_ledgerAfter hfits stage).2
            (mem_finishesOf_of_undropped hdrops (hcalls stage))
          rw [Ledger.mem_missing, hcomplete] at hstage
          cases hstage
        rw [List.flatMap_append, callsOf_append, hmain, hmissing]
        rfl
      | cut => simp [StageStep.notes, dropsOf, Note.dropped?] at hdrops
  | error e =>
    cases h with
    | intro hmain _ _ =>
      cases hmain with
      | noWorkspace =>
        rw [callSequence, hanswer e rfl, if_neg Bool.false_ne_true]
        rfl

end Courses

/-- **No failure suppresses a later stage.** The calls of a branch that is not cut follow from its
backend, from what checkout answered, and from whether the creation of its runner failed fatally. -/
theorem BranchPlan.calls_eq_callSequence {ω : Type} {c : Collaborators ω} (hc : c.Dependable)
    (plan : BranchPlan) (policy : SelectorPolicy) (limit : Option Nat) (world : ω)
    {config : RunConfiguration} {budget : TimeBudget}
    (hresolve : plan.params.resolve policy = .ok config)
    (hbudget : TimeBudget.compute config.durationMinutes config.backend config.region = .ok budget)
    (huncut : dropsOf (plan.notes c policy limit world) = []) :
    ∃ answer time,
      .returned .checkout (answer.map fun _ => none) time ∈ plan.notes c policy limit world ∧
      callsOf (plan.notes c policy limit world) =
        callSequence config.backend
          ((plan.notes c policy limit world).any (·.isRefusal)) answer := by
  obtain ⟨steps, swept, last, hcourse, -, -, -, hnotes⟩ := plan.exists_course hc policy limit world
  rw [hnotes] at huncut ⊢
  cases hcourse with
  | unresolved hunresolved =>
    rw [hresolve] at hunresolved
    cases hunresolved
  | @noCheckout config' e stop hresolved hfatal =>
    refine ⟨.error e, last, List.mem_cons_of_mem _ List.mem_cons_self, ?_⟩
    rw [callSequence, if_pos hfatal]
    rfl
  | noBudget hresolved _ hrefused =>
    rw [hresolve] at hresolved
    cases hresolved
    rw [hbudget] at hrefused
    cases hrefused
  | @finalized _ answer stop _ _ _ _ hresolved hanswer _ hfinal =>
    rw [hresolve] at hresolved
    cases hresolved
    refine ⟨answer, stop, ?_, hfinal.callsOf_notes hanswer huncut⟩
    cases hfinal with
    | intro => exact List.mem_cons_of_mem _ List.mem_cons_self

/-- The runner that is created has no usable address, and logs cannot be collected. -/
def unusableRunner : List Rehearsal.CallRule :=
  [⟨.createRunner, none, { error := some (.notAnAddress "10.0.0") }⟩,
    ⟨.collectLogs, none, { error := some (.configuration (.stated "no logs")) }⟩]

theorem BranchPlan.calls_eq_callSequence_unusableRunner :
    ∃ config budget, hourPlan.params.resolve .firstMatch = .ok config ∧
      TimeBudget.compute config.durationMinutes config.backend config.region = .ok budget ∧
      dropsOf (hourPlan.notes (Rehearsal.collaborators unusableRunner) .firstMatch none []) = [] ∧
      ∃ answer time,
        .returned .checkout (answer.map fun _ => none) time ∈
          hourPlan.notes (Rehearsal.collaborators unusableRunner) .firstMatch none [] ∧
        callsOf (hourPlan.notes (Rehearsal.collaborators unusableRunner) .firstMatch none []) =
          callSequence config.backend
            ((hourPlan.notes (Rehearsal.collaborators unusableRunner) .firstMatch none []).any
              (·.isRefusal)) answer := by
  have hc : (Rehearsal.collaborators unusableRunner).Dependable :=
    Rehearsal.dependable_collaborators (by decide)
  refine ⟨_, _, rfl, rfl, rfl, ?_⟩
  exact BranchPlan.calls_eq_callSequence hc hourPlan .firstMatch none [] rfl rfl rfl

end Stagehand
