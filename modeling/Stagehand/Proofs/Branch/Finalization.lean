import Stagehand.Proofs.Branch.Calls

/-!
# Finalization

A branch that is not ended early is finalized: whatever its stages come to, and wherever its limit
cuts them, its terminal stages have run, its artifacts were archived once, and it has passed or is
degraded.

* `BranchPlan.ends_early_or_finalized` — the two ends of a branch, and which of them it comes to.
-/

namespace Stagehand

open Rehearsal (Call CallNote)

/-! ## The two ends -/

/-- The branch ended before anything was provisioned. -/
structure EndedEarly (o : BranchOutcome) (notes : List Note) : Prop where
  error : o.error.isSome
  status : o.status = .failed
  calls : ∀ call ∈ callsOf notes, call = .checkout
  ledger : o.ledger = Ledger.empty
  artifactsCollected : o.artifactsCollected = false
  runner : o.runner = none

/-- The branch was finalized. -/
structure Finalized (o : BranchOutcome) (notes : List Note) : Prop where
  error : o.error = none
  status : o.status = .passed ∨ o.status = .degraded
  ledger : ∀ stage, o.ledger.isComplete stage = true
  archived : (callsOf notes).count .copyArtifacts = 1

/-- What ends a branch early: its parameters do not resolve, its checkout fails fatally, or its
duration is refused. -/
inductive EarlyCause (plan : BranchPlan) (policy : SelectorPolicy) (notes : List Note) : Prop
  | unresolved {e : RunError} (hresolve : plan.params.resolve policy = .error e)
  | checkout {e : RunError} {time : Nat} (hnote : .returned .checkout (.error e) time ∈ notes)
      (hfatal : e.isFatal = true)
  | budget {config : RunConfiguration} {e : RunError}
      (hresolve : plan.params.resolve policy = .ok config)
      (hbudget : TimeBudget.compute config.durationMinutes config.backend config.region = .error e)

theorem EndedEarly.not_finalized {o : BranchOutcome} {notes : List Note} (h : EndedEarly o notes) :
    ¬ Finalized o notes := by
  intro hfinal
  have herror := h.error
  rw [hfinal.error] at herror
  cases herror

/-! ## Courses -/

section Courses

variable {ctx : BranchContext} {budget : TimeBudget} {limit : Nat} {checkedOut : Bool}
  {steps : List StageStep} {now stop last : Nat} {answer : RunResult Unit} {swept : Swept}

/-- The sweep leaves the ledger complete. -/
theorem FinalCourse.isComplete {before : List StageStep}
    (h : FinalCourse ctx budget limit before now checkedOut steps swept last)
    (stage : TerminalStage) : (finalLedger steps (.ok swept)).isComplete stage = true := by
  cases h with
  | intro _ _ hsweeps =>
    rw [finalLedger, Swept.marks, hsweeps.marks]
    exact Ledger.isComplete_foldl_mark_missing _ stage

theorem FinalCourse.finalStatus {before : List StageStep}
    (h : FinalCourse ctx budget limit before now checkedOut steps swept last) (failed : Bool) :
    finalStatus failed (finalLedger steps (.ok swept)) = if failed then .degraded else .passed := by
  rw [Stagehand.finalStatus, Ledger.allComplete_of_isComplete h.isComplete]
  cases failed <;> rfl

theorem FinalCourse.returned_checkout (h : FinalCourse ctx budget limit
    (preparation ctx answer stop budget) now checkedOut steps swept last)
    {r : RunResult (Option Network.Address)} {time : Nat}
    (hnote : .returned .checkout r time ∈ notesOf steps (.ok swept)) :
    answer.map (fun _ => none) = r := by
  cases h with
  | @intro taken _ _ _ hmain harchives hsweeps =>
    -- Neither the main sequence nor the archive nor the sweep finishes a checkout.
    have htaken : .checkout ∉ finishesOf (taken.flatMap (·.notes)) := fun hmem =>
      absurd (hmain.callsOf_sublist.subset (finishesOf_steps_subset _ hmem)) (by decide)
    have harchived : .checkout ∉ finishesOf swept.archiving.notes := fun hmem =>
      absurd (harchives.callsOf_notes.2.1.subset hmem) (by decide)
    have hswept : .checkout ∉ finishesOf (swept.attempts.flatMap (·.notes)) := by
      rw [hsweeps.callsOf_notes.2.1, List.mem_map]
      rintro ⟨stage, -, hcall⟩
      cases stage <;> cases hcall
    rw [notesOf, List.flatMap_append, Swept.notes, List.mem_append, List.mem_append,
      List.mem_append] at hnote
    rcases hnote with (hfirst | hmem) | hmem | hmem
    · have hsame : r = answer.map (fun _ => none) ∧ time = stop := by
        simpa [preparation, checkoutAttempt, StageStep.notes, Attempt.notes, CallEnding.note] using
          hfirst
      exact hsame.1.symm
    · exact absurd (mem_finishesOf_of_returned hmem) htaken
    · exact absurd (mem_finishesOf_of_returned hmem) harchived
    · exact absurd (mem_finishesOf_of_returned hmem) hswept

/-- A branch that is swept is finalized. -/
theorem FinalCourse.finalized (h : FinalCourse ctx budget limit
    (preparation ctx answer stop budget) now checkedOut steps swept last) (plan : BranchPlan) :
    Finalized (outcomeOf plan steps (.ok swept) last) (notesOf steps (.ok swept)) := by
  refine ⟨rfl, ?_, h.isComplete, ?_⟩
  · rw [outcomeOf, h.finalStatus]
    split
    · exact .inr rfl
    · exact .inl rfl
  · have hmain : .copyArtifacts ∉ callsOf (steps.flatMap (·.notes)) :=
      fun hmem => absurd (h.callsOf_sublist.subset hmem) (by decide)
    have hswept : .copyArtifacts ∉ (ledgerAfter steps).missing.map (·.call) := by
      rw [List.mem_map]
      rintro ⟨stage, -, hcall⟩
      cases stage <;> cases hcall
    rw [notesOf, callsOf_append, h.callsOf_swept, List.count_append, List.count_eq_zero.2 hmain,
      List.count_cons_self, List.count_eq_zero.2 hswept]

theorem FinalCourse.not_earlyCause {plan : BranchPlan} {policy : SelectorPolicy}
    {config : RunConfiguration} (hresolve : plan.params.resolve policy = .ok config)
    (hcheckout : ∀ e, answer = .error e → e.isFatal = false)
    (hbudget :
      TimeBudget.compute config.durationMinutes config.backend config.region = .ok budget)
    (h : FinalCourse ctx budget limit (preparation ctx answer stop budget) now checkedOut steps
      swept last) :
    ¬ EarlyCause plan policy (notesOf steps (.ok swept)) := by
  rintro (⟨hunresolved⟩ | ⟨hnote, hfatal⟩ | ⟨hresolved, hrefused⟩)
  · rw [hresolve] at hunresolved
    cases hunresolved
  · have hanswer := h.returned_checkout hnote
    cases answer with
    | ok => cases hanswer
    | error e =>
      obtain rfl := Except.error.inj hanswer
      rw [hcheckout _ rfl] at hfatal
      cases hfatal
  · rw [hresolve] at hresolved
    cases hresolved
    rw [hbudget] at hrefused
    cases hrefused

end Courses

/-- A course ends early with its cause, or finalized without one. -/
theorem Course.ends {plan : BranchPlan} {policy : SelectorPolicy} {limit : Option Nat}
    {steps : List StageStep} {swept : RunResult Swept} {last : Nat}
    (h : Course plan policy limit steps swept last) :
    (EndedEarly (outcomeOf plan steps swept last) (notesOf steps swept) ∧
      EarlyCause plan policy (notesOf steps swept)) ∨
    (Finalized (outcomeOf plan steps swept last) (notesOf steps swept) ∧
      ¬ EarlyCause plan policy (notesOf steps swept)) := by
  cases h with
  | unresolved hresolve =>
    exact .inl ⟨⟨rfl, rfl, by rintro _ ⟨⟩, rfl, rfl, rfl⟩, .unresolved hresolve⟩
  | noCheckout hresolve hfatal =>
    exact .inl ⟨⟨rfl, rfl, List.forall_mem_singleton.2 rfl, rfl, rfl, rfl⟩,
      .checkout (List.mem_cons_of_mem _ List.mem_cons_self) hfatal⟩
  | noBudget hresolve hcheckout hbudget =>
    exact .inl ⟨⟨rfl, rfl, List.forall_mem_singleton.2 rfl, rfl, rfl, rfl⟩,
      .budget hresolve hbudget⟩
  | finalized hresolve hcheckout hbudget hfinal =>
    exact .inr ⟨hfinal.finalized plan, hfinal.not_earlyCause hresolve hcheckout hbudget⟩

/-- **Finalization is guaranteed.** Whatever the collaborators answer and however long they take, a
branch comes to an end: it ends early exactly if there is a cause to, and is finalized otherwise. -/
theorem BranchPlan.ends_early_or_finalized {ω : Type} {c : Collaborators ω} (hc : c.Dependable)
    (plan : BranchPlan) (policy : SelectorPolicy) (limit : Option Nat) (world : ω) :
    ∃ o, (plan.runWithin c policy limit world).ending = .done o ∧
      (EndedEarly o (plan.notes c policy limit world) ↔
        EarlyCause plan policy (plan.notes c policy limit world)) ∧
      (Finalized o (plan.notes c policy limit world) ↔
        ¬ EarlyCause plan policy (plan.notes c policy limit world)) := by
  obtain ⟨steps, swept, last, hcourse, hending, -, -, hnotes⟩ :=
    plan.exists_course hc policy limit world
  refine ⟨outcomeOf plan steps swept last, hending, ?_⟩
  rw [hnotes]
  obtain ⟨hearly, hcause⟩ | ⟨hfinal, hnone⟩ := hcourse.ends
  · exact ⟨⟨fun _ => hcause, fun _ => hearly⟩,
      fun hfinal => absurd hfinal hearly.not_finalized, fun h => absurd hcause h⟩
  · exact ⟨⟨fun hearly => absurd hfinal hearly.not_finalized, fun h => absurd h hnone⟩,
      fun _ => hnone, fun _ => hfinal⟩

/-- The test never ends in time, and the mail cannot be sent. -/
def hungTest : List Rehearsal.CallRule :=
  [⟨.runTest, none, { delay := 1000000 }⟩,
    ⟨.sendEmail, none, { error := some (.command "mail" (some 1) "refused") }⟩]

theorem BranchPlan.finalized_hungTest :
    (Rehearsal.collaborators hungTest).Dependable ∧
      ∃ o, (hourPlan.runWithin (Rehearsal.collaborators hungTest) .firstMatch none []).ending =
          .done o ∧
        Finalized o (hourPlan.notes (Rehearsal.collaborators hungTest) .firstMatch none []) := by
  have hc : (Rehearsal.collaborators hungTest).Dependable :=
    Rehearsal.dependable_collaborators (by decide)
  have hrun : ∃ o,
      (hourPlan.runWithin (Rehearsal.collaborators hungTest) .firstMatch none []).ending = .done o ∧
        o.error = none := ⟨_, rfl, rfl⟩
  obtain ⟨o, hdone, hearly, hfinal⟩ :=
    BranchPlan.ends_early_or_finalized hc hourPlan .firstMatch none []
  obtain ⟨o', hdone', herror⟩ := hrun
  obtain rfl : o = o' := Ending.done.inj (hdone.symm.trans hdone')
  refine ⟨hc, o, hdone, hfinal.2 fun hcause => ?_⟩
  have hsome := (hearly.2 hcause).error
  rw [herror] at hsome
  cases hsome

end Stagehand
