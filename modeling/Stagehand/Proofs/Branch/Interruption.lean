import Stagehand.Proofs.Branch.Finalization

/-!
# Interruption

Wherever the branch limit cuts a finalized branch, no terminal stage is lost and none finishes
twice. A terminal stage is called a second time only if its first call was dropped, and then by
the sweep; no other step is ever called twice. The sweep begins with the archive, which parts its
calls from those of the main sequence.

Main result: `BranchPlan.terminal_stages_finish_once`.
-/

namespace Stagehand

open Rehearsal (Call CallNote)

/-! ## What is told of the calls -/

def Event.started? : Event → Option Stage
  | stageStarted _ stage => some stage
  | _ => none

/-- The terminal stage that is told to have been swept. -/
def Event.swept? : Event → Option TerminalStage
  | sweepInvoked _ stage _ => some stage
  | _ => none

/-- The stages that were told to have started, in order. -/
def startedStages (events : List Event) : List Stage := events.filterMap (·.started?)

/-- The terminal stages that were told to have been swept, in order. -/
def sweptStages (events : List Event) : List TerminalStage := events.filterMap (·.swept?)

@[simp] theorem startedStages_append (events events' : List Event) :
    startedStages (events ++ events') = startedStages events ++ startedStages events' :=
  List.filterMap_append

@[simp] theorem sweptStages_append (events events' : List Event) :
    sweptStages (events ++ events') = sweptStages events ++ sweptStages events' :=
  List.filterMap_append

namespace StageStep

theorem told_warnings (step : StageStep) (axis : String) :
    startedStages (step.warnings axis) = [] ∧ sweptStages (step.warnings axis) = [] := by
  rw [warnings]
  split
  · split <;> exact ⟨rfl, rfl⟩
  · exact ⟨rfl, rfl⟩

theorem startedStages_events (step : StageStep) (axis : String) :
    startedStages (step.events axis) =
      match step with
      | attempted a => [a.stage]
      | computed _ => [.computeBudget]
      | cut stage _ _ => [stage]
      | passedOver _ _ | refused _ => [] := by
  obtain ⟨hwarnings, -⟩ := step.told_warnings axis
  cases step with
  | passedOver => rfl
  | refused => rfl
  | attempted | computed | cut =>
    simp only [events, startedStages_append, hwarnings, List.append_nil, stage_attempted,
      stage_computed]
    rfl

theorem sweptStages_events (step : StageStep) (axis : String) :
    sweptStages (step.events axis) = [] := by
  obtain ⟨-, hwarnings⟩ := step.told_warnings axis
  cases step with
  | passedOver => rfl
  | refused => rfl
  | attempted | computed | cut =>
    simp only [events, sweptStages_append, hwarnings, List.append_nil]
    rfl

/-- A step calls what it tells to have started. -/
theorem Fits.filterMap_startedStages {step : StageStep} (h : step.Fits) (axis : String) :
    (startedStages (step.events axis)).filterMap (·.call?) = callsOf step.notes := by
  rw [startedStages_events]
  cases step with
  | attempted a =>
    have hcall : a.stage.call? = some a.call.call := h
    simp [StageStep.notes, hcall]
  | cut stage call stop =>
    have hcall : stage.call? = some call.call := h
    simp [StageStep.notes, callsOf, Note.begun?, hcall]
  | computed | passedOver | refused => rfl

end StageStep

theorem filterMap_startedStages {steps : List StageStep} (h : ∀ step ∈ steps, step.Fits)
    (axis : String) :
    (startedStages (steps.flatMap (·.events axis))).filterMap (·.call?) =
      callsOf (steps.flatMap (·.notes)) := by
  induction steps with
  | nil => rfl
  | cons step rest ih =>
    have hstep := (h step List.mem_cons_self).filterMap_startedStages axis
    have hrest := ih fun step hstep => h step (List.mem_cons_of_mem _ hstep)
    rw [List.flatMap_cons, List.flatMap_cons, startedStages_append, List.filterMap_append,
      callsOf_append, hstep, hrest]

theorem sweptStages_steps (steps : List StageStep) (axis : String) :
    sweptStages (steps.flatMap (·.events axis)) = [] := by
  induction steps with
  | nil => rfl
  | cons step rest ih =>
    rw [List.flatMap_cons, sweptStages_append, StageStep.sweptStages_events, ih, List.append_nil]

/-- The sweep tells of every terminal stage that it runs, and starts no other. -/
theorem Swept.told (s : Swept) (axis : String) :
    startedStages (s.events axis) = [] ∧ sweptStages (s.events axis) = s.marks := by
  have htold : ∀ attempts : List Attempt,
      startedStages (attempts.filterMap (·.sweepEvent? axis)) = [] ∧
        sweptStages (attempts.filterMap (·.sweepEvent? axis)) =
          attempts.filterMap (·.stage.terminal?) := by
    intro attempts
    induction attempts with
    | nil => exact ⟨rfl, rfl⟩
    | cons a rest ih =>
      rw [List.filterMap_cons, List.filterMap_cons, Attempt.sweepEvent?]
      cases a.stage.terminal? with
      | none => exact ih
      | some stage => exact ⟨ih.1, congrArg (stage :: ·) ih.2⟩
  exact htold s.attempts

theorem told_eventsOf (plan : BranchPlan) (steps : List StageStep) (swept : Swept) (last : Nat) :
    startedStages (eventsOf plan steps (.ok swept) last) =
        startedStages (steps.flatMap (·.events plan.axis)) ∧
      sweptStages (eventsOf plan steps (.ok swept) last) = swept.marks := by
  obtain ⟨hstarted, hswept⟩ := swept.told plan.axis
  have hevents : eventsOf plan steps (.ok swept) last =
      [.branchStarted plan.axis plan.testId] ++ steps.flatMap (·.events plan.axis) ++
        swept.events plan.axis ++
        [.branchCompleted plan.axis (outcomeOf plan steps (.ok swept) last).status last] := rfl
  simp only [hevents, startedStages_append, sweptStages_append, hstarted, hswept, sweptStages_steps]
  exact ⟨by simp [startedStages, Event.started?], by simp [sweptStages, Event.swept?]⟩

/-! ## Main sequence and sweep -/

/-- The notes of a finalized branch: those of its main sequence, the archive, and those of its
sweep. What is called is what is told. -/
structure PartedBy (events : List Event) (notes main : List Note) (copy : CallNote)
    (swept : List Note) : Prop where
  notes_eq : notes = main ++ .called copy :: swept
  copy_call : copy.call = .copyArtifacts
  main_calls : callsOf main = (startedStages events).filterMap (·.call?)
  swept_calls : callsOf swept = (sweptStages events).map (·.call)

/-- A call finishes once, in the main sequence or in the sweep. It is made twice only if it was
dropped in the main sequence, and then again in the sweep. -/
structure FinishesOnce (main swept : List Note) (call : Call) : Prop where
  finishes : (finishesOf (main ++ swept)).count call = 1
  twice : .dropped call ∈ main → (callsOf main).count call = 1 ∧ (callsOf swept).count call = 1
  once : .dropped call ∉ main → (callsOf (main ++ swept)).count call = 1
  swept : .dropped call ∉ swept

theorem PartedBy.count {events : List Event} {notes main swept : List Note} {copy : CallNote}
    (h : PartedBy events notes main copy swept) (stage : TerminalStage) :
    (finishesOf notes).count stage.call = (finishesOf (main ++ swept)).count stage.call ∧
      (callsOf notes).count stage.call = (callsOf (main ++ swept)).count stage.call := by
  have hcopy : copy.call ≠ stage.call := by
    rw [h.copy_call]
    cases stage <;> decide
  have hcalls : callsOf (.called copy :: swept) = copy.call :: callsOf swept := rfl
  have hfinishes : finishesOf (.called copy :: swept) = finishesOf swept := rfl
  rw [h.notes_eq, finishesOf_append, finishesOf_append, callsOf_append, callsOf_append, hcalls,
    hfinishes]
  refine ⟨rfl, ?_⟩
  rw [List.count_append, List.count_append, List.count_cons_of_ne hcopy]

/-- What is dropped was in flight when the branch limit passed, and is recorded so. -/
theorem exists_cut_of_dropped {steps : List StageStep} (h : ∀ step ∈ steps, step.Fits) {call : Call}
    (hdropped : .dropped call ∈ steps.flatMap (·.notes)) :
    ∃ stage duration, stage.call? = some call ∧
      StageRecord.failed stage .timedOut duration cutText ∈ steps.map (·.record) := by
  obtain ⟨step, hstep, hnote⟩ := List.mem_flatMap.1 hdropped
  have hfits := h step hstep
  cases step with
  | attempted a =>
    have hnone := mem_dropsOf.2 hnote
    rw [StageStep.notes, dropsOf_attempt] at hnone
    cases hnone
  | computed | passedOver | refused => cases hnote
  | cut stage n stop =>
    have hcall : stage.call? = some n.call := hfits
    have hsame : call = n.call := by simpa [StageStep.notes] using hnote
    exact ⟨stage, stop - n.time, hsame ▸ hcall, List.mem_map.2 ⟨_, hstep, rfl⟩⟩

/-- What is noted of a sweep once the archive is called. -/
def Swept.laterNotes (s : Swept) : List Note :=
  s.archiving.ending.returnNotes s.archiving.call.call s.archiving.stop ++
    s.attempts.flatMap (·.notes)

theorem Ledger.count_missing (l : Ledger) (stage : TerminalStage) :
    (l.missing.map (·.call)).count stage.call = if l.isComplete stage then 0 else 1 := by
  obtain ⟨cleaned, mailed⟩ := l
  cases cleaned <;> cases mailed <;> cases stage <;> decide

section Courses

variable {ctx : BranchContext} {budget : TimeBudget} {limit : Nat} {checkedOut : Bool}
  {steps : List StageStep} {now stop last : Nat} {answer : RunResult Unit} {swept : Swept}

theorem FinalCourse.laterNotes {before : List StageStep}
    (h : FinalCourse ctx budget limit before now checkedOut steps swept last) :
    callsOf swept.laterNotes = (ledgerAfter steps).missing.map (·.call) ∧
      (∀ stage : TerminalStage, (finishesOf swept.laterNotes).count stage.call =
        ((ledgerAfter steps).missing.map (·.call)).count stage.call) ∧
      dropsOf swept.laterNotes = [] := by
  cases h with
  | intro _ harchives hsweeps =>
    obtain ⟨hcalls, hfinishes, hdrops⟩ := hsweeps.callsOf_notes
    rw [Swept.laterNotes, harchives.hcall, callsOf_append, finishesOf_append, dropsOf_append,
      hcalls, hfinishes, hdrops]
    cases swept.archiving.ending with
    | expired => exact ⟨rfl, fun _ => rfl, rfl⟩
    | returned answer =>
      refine ⟨rfl, fun stage => ?_, rfl⟩
      have hne : Call.copyArtifacts ≠ stage.call := by
        cases stage <;> decide
      exact List.count_cons_of_ne hne

theorem FinalCourse.finishesOnce (h : FinalCourse ctx budget limit
    (preparation ctx answer stop budget) now checkedOut steps swept last) (stage : TerminalStage) :
    FinishesOnce (steps.flatMap (·.notes)) swept.laterNotes stage.call := by
  obtain ⟨hcalls, hfinishes, hdrops⟩ := h.laterNotes
  have hmost : (callsOf (steps.flatMap (·.notes))).count stage.call ≤ 1 :=
    Nat.le_trans (h.callsOf_sublist.count_le _) (by cases stage <;> decide)
  have hsum := count_callsOf_steps steps stage.call
  -- The sweep makes up for what did not finish.
  have hmissing : (finishesOf (steps.flatMap (·.notes))).count stage.call +
      ((ledgerAfter steps).missing.map (·.call)).count stage.call = 1 := by
    rw [Ledger.count_missing]
    have hcomplete := isComplete_ledgerAfter h.fits stage
    rw [← List.count_pos_iff] at hcomplete
    by_cases hstage : (ledgerAfter steps).isComplete stage = true
    · have hpos := hcomplete.1 hstage
      rw [if_pos hstage]
      omega
    · have hzero := mt hcomplete.2 hstage
      rw [if_neg hstage]
      omega
  constructor
  case finishes => rw [finishesOf_append, List.count_append, hfinishes, hmissing]
  case twice =>
    intro hdropped
    have hpos := List.count_pos_iff.2 (mem_dropsOf.2 hdropped)
    rw [hcalls]
    omega
  case once =>
    intro hdropped
    have hzero := List.count_eq_zero.2 (mt mem_dropsOf.1 hdropped)
    rw [callsOf_append, List.count_append, hcalls]
    omega
  case swept =>
    rw [← mem_dropsOf, hdrops]
    exact List.not_mem_nil

/-- The archive parts the notes of a finalized branch. -/
theorem FinalCourse.partedBy (h : FinalCourse ctx budget limit
    (preparation ctx answer stop budget) now checkedOut steps swept last) (plan : BranchPlan) :
    PartedBy (eventsOf plan steps (.ok swept) last) (notesOf steps (.ok swept))
      (steps.flatMap (·.notes)) swept.archiving.call swept.laterNotes := by
  have hmarks : swept.marks = (ledgerAfter steps).missing := by
    cases h with
    | intro _ _ hsweeps => exact hsweeps.marks
  have hcopy : swept.archiving.call.call = .copyArtifacts := by
    cases h with
    | intro _ harchives _ => rw [harchives.hcall]
  obtain ⟨hstarted, hswept⟩ := told_eventsOf plan steps swept last
  constructor
  case notes_eq => rfl
  case copy_call => exact hcopy
  case main_calls => rw [hstarted, filterMap_startedStages h.fits]
  case swept_calls => rw [hswept, hmarks, h.laterNotes.1]

/-- Only terminal stages are called again. -/
theorem FinalCourse.count_callsOf_le_one (h : FinalCourse ctx budget limit
    (preparation ctx answer stop budget) now checkedOut steps swept last) {call : Call}
    (hcall : ∀ stage : TerminalStage, call ≠ stage.call) :
    (callsOf (notesOf steps (.ok swept))).count call ≤ 1 := by
  have hmain := h.callsOf_sublist.count_le call
  have hmissing : call ∉ (ledgerAfter steps).missing.map (·.call) := by
    rw [List.mem_map]
    rintro ⟨stage, -, rfl⟩
    exact hcall stage rfl
  rw [notesOf, callsOf_append, h.callsOf_swept, List.count_append, List.count_cons,
    List.count_eq_zero.2 hmissing]
  refine Nat.le_trans (Nat.add_le_add_right hmain _) ?_
  cases call <;> decide

end Courses

/-- **Nothing is lost, and nothing is done twice.** A finalized branch calls its archive once,
after its main sequence and before its sweep. Each terminal stage finishes once; it is called a
second time only if its first call was dropped, and then by the sweep. Every other step is called
at most once. -/
theorem BranchPlan.terminal_stages_finish_once {ω : Type} {c : Collaborators ω} (hc : c.Dependable)
    (plan : BranchPlan) (policy : SelectorPolicy) (limit : Option Nat) (world : ω)
    {o : BranchOutcome}
    (hdone : (plan.runWithin c policy limit world).ending = .done o) (hfinal : o.error = none) :
    ∃ main copy swept,
      PartedBy (plan.runWithin c policy limit world).state.progress.events
        (plan.notes c policy limit world) main copy swept ∧
      (∀ stage : TerminalStage, FinishesOnce main swept stage.call) ∧
      (∀ call, (∀ stage : TerminalStage, call ≠ stage.call) →
        (callsOf (plan.notes c policy limit world)).count call ≤ 1) ∧
      ∀ call, .dropped call ∈ main → ∃ stage duration, stage.call? = some call ∧
        StageRecord.failed stage .timedOut duration cutText ∈ o.stages := by
  obtain ⟨steps, swept, last, hcourse, hending, -, hevents, hnotes⟩ :=
    plan.exists_course hc policy limit world
  rw [hending] at hdone
  obtain rfl := Ending.done.inj hdone
  rw [hevents, hnotes]
  cases hcourse with
  | unresolved => cases hfinal
  | noCheckout => cases hfinal
  | noBudget => cases hfinal
  | @finalized _ _ _ _ _ swept _ _ _ _ hcourse =>
    refine ⟨steps.flatMap (·.notes), swept.archiving.call, swept.laterNotes,
      hcourse.partedBy plan, hcourse.finishesOnce, fun _ => hcourse.count_callsOf_le_one, ?_⟩
    intro call hdropped
    obtain ⟨stage, duration, hcall, hrecord⟩ := exists_cut_of_dropped hcourse.fits hdropped
    exact ⟨stage, duration, hcall, List.mem_append_left _ hrecord⟩

/-- Cleaning up takes ten seconds. -/
def slowCleanup : List Rehearsal.CallRule := [⟨.cleanResources, none, { delay := 10 }⟩]

theorem BranchPlan.terminal_stages_finish_once_slowCleanup :
    ∃ o,
      (hourPlan.runWithin (Rehearsal.collaborators slowCleanup) .firstMatch (some 5000) []).ending =
        .done o ∧
      o.error = none ∧
      dropsOf (hourPlan.notes (Rehearsal.collaborators slowCleanup) .firstMatch (some 5000) []) =
        [.cleanResources] ∧
      ∃ main copy swept,
        PartedBy (hourPlan.runWithin (Rehearsal.collaborators slowCleanup) .firstMatch (some 5000)
            []).state.progress.events
          (hourPlan.notes (Rehearsal.collaborators slowCleanup) .firstMatch (some 5000) [])
          main copy swept ∧
        ∀ stage : TerminalStage, FinishesOnce main swept stage.call := by
  have hc : (Rehearsal.collaborators slowCleanup).Dependable :=
    Rehearsal.dependable_collaborators (by decide)
  refine ⟨_, rfl, rfl, rfl, ?_⟩
  obtain ⟨main, copy, swept, hparted, honce, -, -⟩ :=
    BranchPlan.terminal_stages_finish_once hc hourPlan .firstMatch (some 5000) [] rfl rfl
  exact ⟨main, copy, swept, hparted, honce⟩

end Stagehand
