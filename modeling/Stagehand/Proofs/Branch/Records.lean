import Stagehand.Proofs.Branch.Breaking
import Stagehand.Proofs.Branch.Interruption

/-!
# What the records tell

A branch keeps one record per stage that it came to, in order, and afterwards those of its sweep.
They tell every stage once, unless the branch limit passed: then the last one before the sweep is
the stage that was in flight, and the sweep makes up for the terminal stages that were not over. The
status of a branch follows from its error and its records.

Stages in flight are followed through the program itself, since a limit may pass wherever
collaborators wait. Everything else is read off the history.

Main result: `BranchPlan.records_tell`.
-/

namespace Stagehand

open Rehearsal (Call CallNote)
open Timed

variable {σ ω α β : Type}

/-! ## The stage in flight -/

/-- What holds of the state when an activity is cut. -/
def Timed.WhenCut (x : Timed σ α) (P : σ → Prop) : Prop :=
  ∀ deadline now s, meets now deadline → (x.runUnder deadline now s).ending = .cut →
    P (x.runUnder deadline now s).state

section WhenCut

variable {P : σ → Prop}

theorem whenCut_pure (a : α) : (pure a : Timed σ α).WhenCut P := by
  rintro _ _ _ _ ⟨⟩

theorem whenCut_bind {x : Timed σ β} {f : β → Timed σ α} (hx : x.WhenCut P)
    (hf : ∀ b, (f b).WhenCut P) : (x >>= f).WhenCut P := by
  intro deadline now s hd
  have hxs := hx deadline now s hd
  have hmeets : ∀ b, (x.runUnder deadline now s).ending = .done b →
      meets (x.runUnder deadline now s).time deadline := fun b hb => meets_time_of_done hb hd
  rw [runUnder_bind]
  generalize x.runUnder deadline now s = e at hxs hmeets ⊢
  obtain ⟨b | _ | _, time, t⟩ := e
  · exact hf b deadline time t (hmeets b rfl)
  · exact fun _ => hxs rfl
  · rintro ⟨⟩

theorem whenCut_modify (f : σ → σ) : (Timed.modify f).WhenCut P := by
  rintro _ _ _ _ ⟨⟩

theorem whenCut_get_bind {f : σ → Timed σ α} (hf : ∀ s, (f s).WhenCut P) : (get >>= f).WhenCut P :=
  fun deadline now s => hf s deadline now s

end WhenCut

namespace BranchState

variable {stages : List Stage}

/-- One of these stages is in flight. -/
def IsIn (stages : List Stage) (s : BranchState ω) : Prop :=
  ∃ stage ∈ stages, ∃ started, s.inFlight = some (stage, started)

theorem whenCut_tell {P : BranchState ω → Prop} (e : Event) : (tell e).WhenCut P := by
  rintro _ _ _ _ ⟨⟩

theorem whenCut_record {P : BranchState ω → Prop} (axis : String) (r : StageRecord) :
    (record axis r).WhenCut P :=
  whenCut_bind (whenCut_tell _) fun _ => whenCut_modify _

/-- An attempt is cut with its stage in flight. -/
theorem whenCut_attempt (axis : String) {stage : Stage} {body : Timed (BranchState ω) (RunResult α)}
    (hstage : stage ∈ stages)
    (hbody : ∀ deadline now s, meets now deadline →
      (body.runUnder deadline now s).state.inFlight = s.inFlight) :
    (attempt axis stage body).WhenCut (IsIn stages) := by
  intro deadline now s hd
  let after (result : RunResult α) : Timed (BranchState ω) (RunResult α) := do
    Timed.modify fun s => { s with inFlight := none }
    let ended ← Timed.now
    record axis (StageRecord.ofResult stage (ended - now) result)
    pure result
  have hrun : (attempt axis stage body).runUnder deadline now s =
      (body.andThen after).runUnder deadline now (s.begun axis stage now) := rfl
  have hflight := hbody deadline now (s.begun axis stage now) hd
  rw [hrun, runUnder_andThen]
  generalize body.runUnder deadline now (s.begun axis stage now) = e at hflight ⊢
  obtain ⟨r | _ | _, time, t⟩ := e
  · rintro ⟨⟩
  · exact fun _ => ⟨stage, hstage, now, hflight⟩
  · rintro ⟨⟩

theorem whenCut_attemptBounded (axis : String) {stage : Stage} (limit : Nat)
    (body : Timed ω (RunResult α)) (hstage : stage ∈ stages) :
    (attemptBounded axis stage limit body).WhenCut (IsIn stages) := by
  refine whenCut_attempt axis hstage fun deadline now s hd => ?_
  rw [outside, onProgress, runUnder_bounded_onPart isPart_progress _ _ _ _ hd,
    runUnder_onPart isPart_progress]
  rfl

end BranchState

section Program

open BranchState

variable (c : Collaborators ω) (ctx : BranchContext) (budget : TimeBudget)

theorem whenCut_runnerStage : (runnerStage c ctx budget).WhenCut (IsIn mainSequence) := by
  rw [runnerStage]
  split
  · refine whenCut_bind (whenCut_attemptBounded _ _ _ (by decide)) fun created => ?_
    cases created with
    | ok address => exact whenCut_bind (whenCut_modify _) fun _ => whenCut_pure _
    | error e =>
      dsimp only
      split
      · exact whenCut_pure _
      · exact whenCut_bind (whenCut_tell _) fun _ => whenCut_pure _
  · exact whenCut_bind (whenCut_modify _) fun _ => whenCut_pure _

theorem whenCut_testStage (unusable : Option RunError) :
    (testStage c ctx budget unusable).WhenCut (IsIn mainSequence) := by
  cases unusable with
  | some reason => exact whenCut_record _ _
  | none =>
    refine whenCut_get_bind fun s => ?_
    exact whenCut_bind (whenCut_attemptBounded _ _ _ (by decide)) fun _ => whenCut_pure _

theorem whenCut_logStage : (logStage c ctx budget).WhenCut (IsIn mainSequence) := by
  refine whenCut_get_bind fun s => ?_
  exact whenCut_bind (whenCut_attemptBounded _ _ _ (by decide)) fun _ => whenCut_pure _

theorem whenCut_terminalStages (target : Target) (build : BuildResult)
    (stages : List TerminalStage) :
    (terminalStages c ctx budget target build stages).WhenCut (IsIn mainSequence) := by
  induction stages with
  | nil => exact whenCut_pure _
  | cons stage rest ih =>
    have hstage : stage.toStage ∈ mainSequence := by
      cases stage <;> decide
    refine whenCut_bind (whenCut_attempt _ hstage fun deadline now s _ => ?_) fun _ => ih
    rw [onProgress, runUnder_onPart isPart_progress]
    rfl

/-- **A limit that passes finds a stage in flight**, wherever it cuts the stages of a branch. -/
theorem whenCut_provisionedStages :
    (provisionedStages c ctx budget).WhenCut (IsIn mainSequence) := by
  refine whenCut_bind (whenCut_runnerStage c ctx budget) fun unusable => ?_
  refine whenCut_bind (whenCut_testStage c ctx budget unusable) fun _ => ?_
  refine whenCut_bind (whenCut_logStage c ctx budget) fun _ => whenCut_get_bind fun s => ?_
  exact whenCut_terminalStages c ctx budget _ _ _

end Program

/-! ## Stages of a course -/

section Courses

variable {ctx : BranchContext} {budget : TimeBudget} {deadline : Option Nat} {limit : Nat}
  {checkedOut : Bool} {steps taken : List StageStep} {now stop last : Nat} {answer : RunResult Unit}
  {swept : Swept}

theorem Takes.marked?_eq {stage : Stage} {step : StageStep} {time : Nat}
    (h : Takes ctx budget deadline steps now stage step time) : step.marked? = stage.terminal? := by
  cases h with
  | attempted _ ha => exact congrArg Stage.terminal? ha.hstage
  | passedOver hstage => rw [hstage]; rfl
  | refused hstage => rw [hstage]; rfl

theorem Path.filterMap_marked? {stages : List Stage}
    (h : Path ctx budget deadline steps now stages taken last) :
    taken.filterMap (·.marked?) = stages.filterMap (·.terminal?) := by
  induction h with
  | nil => rfl
  | cons htakes _ ih => rw [List.filterMap_cons, List.filterMap_cons, htakes.marked?_eq, ih]

theorem Path.dropsOf_notes {stages : List Stage}
    (h : Path ctx budget deadline steps now stages taken last) :
    dropsOf (taken.flatMap (·.notes)) = [] := by
  induction h with
  | nil => rfl
  | cons htakes _ ih =>
    rw [List.flatMap_cons, dropsOf_append, ih, List.append_nil]
    cases htakes with
    | attempted => exact dropsOf_attempt _
    | passedOver | refused => rfl

/-- What is missing after some of the main sequence is what the rest of it would have run. -/
theorem missing_of_mainSequence {early late : List Stage} (h : mainSequence = early ++ late) :
    ((early.filterMap (·.terminal?)).foldl Ledger.mark Ledger.empty).missing.map (·.toStage) =
      late.filter (·.terminal?.isSome) := by
  have hall : ∀ k < mainSequence.length + 1,
      (((mainSequence.take k).filterMap (·.terminal?)).foldl Ledger.mark Ledger.empty).missing.map
        (·.toStage) = (mainSequence.drop k).filter (·.terminal?.isSome) := by decide
  have hlength : early.length < mainSequence.length + 1 := by
    rw [h, List.length_append]
    omega
  have hearly : mainSequence.take early.length = early := by rw [h, List.take_left]
  have hlate : mainSequence.drop early.length = late := by rw [h, List.drop_left]
  have hk := hall early.length hlength
  rwa [hearly, hlate] at hk

theorem isFailure_checkoutAttempt (e : RunError) :
    (StageStep.attempted (checkoutAttempt ctx (.error e) stop)).isFailure = true := by
  cases e <;> rfl

/-- The stages of a finalized branch, and of its sweep, which runs none unless something failed. -/
inductive FinalStages (swept : List Stage) : List StageStep → Prop
  | whole {steps : List StageStep} (hdrops : dropsOf (steps.flatMap (·.notes)) = [])
      (hstages : steps.map (·.stage) ++ swept = Stage.sequence)
      (hfailed : swept ≠ [] → steps.any (·.isFailure) = true) : FinalStages swept steps
  | cut {before : List StageStep} {stage : Stage} {call : CallNote} {stop : Nat} {late : List Stage}
      (hcall : stage.call? = some call.call)
      (hdrops : dropsOf (before.flatMap (·.notes)) = [])
      (hsequence : Stage.sequence = before.map (·.stage) ++ stage :: late)
      (hswept : swept = (stage :: late).filter (·.terminal?.isSome)) :
      FinalStages swept (before ++ [.cut stage call stop])

theorem FinalCourse.finalStages
    (h : FinalCourse ctx budget limit
      (preparation ctx answer stop budget) now answer.toOption.isSome steps swept last) :
    FinalStages (swept.attempts.map (·.stage)) steps := by
  have hpreparation : (preparation ctx answer stop budget).map (·.stage) =
      [.checkout, .computeBudget] := by
    rw [preparation, List.map_cons, StageStep.stage_attempted]
    rfl
  have hnone : (preparation ctx answer stop budget).filterMap (·.marked?) = [] := rfl
  have hquiet : dropsOf ((preparation ctx answer stop budget).flatMap (·.notes)) = [] := rfl
  generalize hchecked : answer.toOption.isSome = checkedOut at h
  cases h with
  | @intro taken time _ _ hmain _ hsweeps =>
    rw [hsweeps.map_stage]
    -- The sweep runs what the main sequence has not marked: nothing, its rest, or all of it.
    cases hmain with
    | complete hpath =>
      have hmissing : (ledgerAfter (preparation ctx answer stop budget ++ taken)).missing = [] := by
        rw [ledgerAfter, List.filterMap_append, hnone, List.nil_append, hpath.filterMap_marked?]
        rfl
      rw [hmissing]
      refine .whole ?_ ?_ fun hne => absurd rfl hne
      · rw [List.flatMap_append, dropsOf_append, hquiet, hpath.dropsOf_notes, List.append_nil]
      · rw [List.map_append, hpreparation, hpath.map_stage]
        rfl
    | @cut early late stage taken _ call _ hsequence hpath hcuts =>
      have hmarks : (preparation ctx answer stop budget ++
          (taken ++ [StageStep.cut stage call time])).filterMap (·.marked?) =
            early.filterMap (·.terminal?) := by
        rw [List.filterMap_append, List.filterMap_append, hnone, List.nil_append,
          hpath.filterMap_marked?]
        exact List.append_nil _
      rw [ledgerAfter, hmarks, missing_of_mainSequence hsequence, ← List.append_assoc]
      refine .cut (call?_of_callAfter hcuts.hcall) ?_ ?_ rfl
      · rw [List.flatMap_append, dropsOf_append, hquiet, hpath.dropsOf_notes, List.append_nil]
      · rw [List.map_append, hpreparation, hpath.map_stage, List.append_assoc, ← hsequence]
        rfl
    | noWorkspace =>
      refine .whole ?_ ?_ fun _ => ?_
      · rw [List.flatMap_append, dropsOf_append, hquiet]
        rfl
      · rw [List.map_append, hpreparation]
        rfl
      · cases answer with
        | ok => cases hchecked
        | error e => exact List.any_eq_true.2 ⟨_, List.mem_cons_self, isFailure_checkoutAttempt e⟩

end Courses

/-! ## Outcomes -/

/-- The records of a branch that was cut in a call: the stage in flight is the last one of the main
sequence, and the sweep ran every terminal stage that was not over by then. -/
inductive CutRecords (call : Call) : List StageRecord → Prop
  | intro {before swept : List StageRecord} {stage : Stage} {late : List Stage} {duration : Nat}
      (hcall : stage.call? = some call)
      (hsequence : Stage.sequence = before.map (·.stage) ++ stage :: late)
      (hswept : swept.map (·.stage) = (stage :: late).filter (·.terminal?.isSome)) :
      CutRecords call (before ++ .failed stage .timedOut duration cutText :: swept)

/-- What the records and the status of a branch tell. A call is dropped exactly where the
branch limit passes. -/
structure Recorded (o : BranchOutcome) (events : List Event) (notes : List Note) : Prop where
  early : o.error.isSome → o.stages.map (·.stage) <+: [.checkout, .computeBudget]
  whole : o.error = none → dropsOf notes = [] → o.stages.map (·.stage) = Stage.sequence
  /-- At most one call is dropped, and the stage that made it is recorded. -/
  cut : ∀ call ∈ dropsOf notes, o.error = none ∧ dropsOf notes = [call] ∧ CutRecords call o.stages
  /-- The status follows from the rest of the outcome. -/
  status : o.status =
    if o.error.isSome then .failed
    else if ∃ r ∈ o.stages, r.status = .failed ∨ r.status = .timedOut then .degraded
    else .passed
  /-- It does not depend on what became of the stages that the sweep ran. -/
  sweep : ∃ main swept, o.stages = main ++ swept ∧
    swept.map (·.stage) = (sweptStages events).map (·.toStage) ∧
    (swept ≠ [] → ∃ r ∈ main, r.status = .failed ∨ r.status = .timedOut)

theorem StageStatus.isFailure_iff {status : StageStatus} :
    status.isFailure = true ↔ status = .failed ∨ status = .timedOut := by
  cases status <;> decide

theorem exists_isFailure_iff {steps : List StageStep} :
    (∃ r ∈ steps.map (·.record), r.status = .failed ∨ r.status = .timedOut) ↔
      steps.any (·.isFailure) = true := by
  simp only [List.any_eq_true, StageStep.isFailure, StageStatus.isFailure_iff]
  constructor
  · rintro ⟨_, hr, hstatus⟩
    obtain ⟨step, hstep, rfl⟩ := List.mem_map.1 hr
    exact ⟨step, hstep, hstatus⟩
  · rintro ⟨step, hstep, hstatus⟩
    exact ⟨_, List.mem_map_of_mem hstep, hstatus⟩

/-- Only a sweep tells of stages that it ran. -/
theorem sweptStages_error (plan : BranchPlan) (steps : List StageStep) (e : RunError) (last : Nat) :
    sweptStages (eventsOf plan steps (.error e) last) = [] := by
  have hevents : eventsOf plan steps (.error e) last =
      [.branchStarted plan.axis plan.testId] ++ steps.flatMap (·.events plan.axis) ++
        [.log .error e.message (some plan.axis)] ++ [.branchCompleted plan.axis .failed last] := rfl
  simp only [hevents, sweptStages_append, sweptStages_steps]
  rfl

section Outcomes

variable {plan : BranchPlan} {steps : List StageStep} {last : Nat}

theorem recorded_of_error {e : RunError}
    (hstages : steps.map (·.stage) <+: [.checkout, .computeBudget])
    (hdrops : dropsOf (steps.flatMap (·.notes)) = []) :
    Recorded (outcomeOf plan steps (.error e) last) (eventsOf plan steps (.error e) last)
      (notesOf steps (.error e)) := by
  have hrecords : (outcomeOf plan steps (.error e) last).stages = steps.map (·.record) :=
    List.append_nil _
  constructor
  case early =>
    intro _
    rw [hrecords, List.map_map]
    exact hstages
  case whole => rintro ⟨⟩
  case cut =>
    intro call hcall
    rw [notesOf, hdrops] at hcall
    cases hcall
  case status => rfl
  case sweep =>
    exact ⟨_, [], (List.append_nil _).symm, by rw [sweptStages_error]; rfl, fun h => absurd rfl h⟩

/-- The sweep only runs stages after a failure. -/
theorem FinalStages.any_isFailure {stages : List Stage} (h : FinalStages stages steps)
    (hne : stages ≠ []) : steps.any (·.isFailure) = true := by
  cases h with
  | whole _ _ hfailed => exact hfailed hne
  | cut =>
    rw [List.any_append]
    exact Bool.or_true _

/-- So what the sweep records does not count among the failures of a branch. -/
theorem exists_isFailure_append_iff {records : List StageRecord}
    (h : records ≠ [] → steps.any (·.isFailure) = true) :
    (∃ r ∈ steps.map (·.record) ++ records, r.status = .failed ∨ r.status = .timedOut) ↔
      steps.any (·.isFailure) = true := by
  rw [← exists_isFailure_iff]
  constructor
  · rintro ⟨r, hr, hstatus⟩
    obtain hr | hr := List.mem_append.1 hr
    · exact ⟨r, hr, hstatus⟩
    · exact exists_isFailure_iff.2 (h (List.ne_nil_of_mem hr))
  · rintro ⟨r, hr, hstatus⟩
    exact ⟨r, List.mem_append_left _ hr, hstatus⟩

/-- A course that is finalized records every stage, or the one that was cut. -/
theorem recorded_of_finalStages {swept : Swept}
    (hstages : FinalStages (swept.attempts.map (·.stage)) steps)
    (hmarks : swept.attempts.map (·.stage) = swept.marks.map (·.toStage))
    (hdrops : dropsOf swept.notes = [])
    (hstatus : (outcomeOf plan steps (.ok swept) last).status =
      if steps.any (·.isFailure) then .degraded else .passed) :
    Recorded (outcomeOf plan steps (.ok swept) last) (eventsOf plan steps (.ok swept) last)
      (notesOf steps (.ok swept)) := by
  have hrecords := swept.stage_records
  have hdropped : dropsOf (notesOf steps (.ok swept)) = dropsOf (steps.flatMap (·.notes)) := by
    rw [notesOf, dropsOf_append, hdrops, List.append_nil]
  -- The sweep runs stages only after a failure, so that its records change no status.
  have hfailed : swept.records ≠ [] → steps.any (·.isFailure) = true := by
    intro hne
    refine hstages.any_isFailure fun hnil => hne ?_
    rw [hnil] at hrecords
    exact List.map_eq_nil_iff.1 hrecords
  constructor
  case early => rintro ⟨⟩
  case whole =>
    intro _ hnone
    rw [hdropped] at hnone
    cases hstages with
    | whole _ hsequence _ =>
      show (steps.map (·.record) ++ swept.records).map (·.stage) = _
      rw [List.map_append, List.map_map, hrecords]
      exact hsequence
    | cut =>
      rw [List.flatMap_append, dropsOf_append] at hnone
      cases (List.append_eq_nil_iff.1 hnone).2
  case cut =>
    intro call hcall
    rw [hdropped] at hcall ⊢
    cases hstages with
    | whole hnone => rw [hnone] at hcall; cases hcall
    | @cut before stage n stop late hof hquiet hsequence hswept =>
      have hone : dropsOf ((before ++ [StageStep.cut stage n stop]).flatMap (·.notes)) =
          [n.call] := by
        rw [List.flatMap_append, dropsOf_append, hquiet]
        rfl
      rw [hone, List.mem_singleton] at hcall
      subst hcall
      refine ⟨rfl, hone, ?_⟩
      show CutRecords n.call
        ((before ++ [StageStep.cut stage n stop]).map (·.record) ++ swept.records)
      rw [List.map_append, List.append_assoc]
      refine .intro hof ?_ (hrecords.trans hswept)
      rw [List.map_map]
      exact hsequence
  case status =>
    rw [hstatus]
    show _ = if ∃ r ∈ steps.map (·.record) ++ swept.records, r.status = .failed ∨
      r.status = .timedOut
      then BranchStatus.degraded else .passed
    simp only [exists_isFailure_append_iff hfailed]
  case sweep =>
    refine ⟨_, _, rfl, ?_, fun hne => exists_isFailure_iff.2 (hfailed hne)⟩
    rw [hrecords, hmarks, (told_eventsOf plan steps swept last).2]

end Outcomes

theorem Course.recorded {plan : BranchPlan} {policy : SelectorPolicy} {limit : Option Nat}
    {steps : List StageStep} {swept : RunResult Swept} {last : Nat}
    (h : Course plan policy limit steps swept last) :
    Recorded (outcomeOf plan steps swept last) (eventsOf plan steps swept last)
      (notesOf steps swept) := by
  cases h with
  | unresolved => exact recorded_of_error List.nil_prefix rfl
  | noCheckout => exact recorded_of_error (List.prefix_append [Stage.checkout] [.computeBudget]) rfl
  | noBudget =>
    refine recorded_of_error ?_ rfl
    rw [List.map_cons, StageStep.stage_attempted]
    exact List.prefix_rfl
  | finalized _ _ _ hfinal =>
    have hstages := hfinal.finalStages
    have hstatus := hfinal.finalStatus (steps.any (·.isFailure))
    cases hfinal with
    | intro _ harchives hsweeps =>
      refine recorded_of_finalStages hstages ?_ ?_ hstatus
      · rw [Swept.marks, hsweeps.marks, hsweeps.map_stage]
      · rw [Swept.notes, dropsOf_append, harchives.callsOf_notes.2.2, hsweeps.callsOf_notes.2.2]
        rfl

/-- **The records and the status of a branch tell what happened**, whatever its collaborators do.
They tell every stage once, or every stage up to the one that was in flight when the branch limit
passed, and then those of the sweep. A limit that passes always finds one stage in flight. -/
theorem BranchPlan.records_tell (plan : BranchPlan) (c : Collaborators ω) (policy : SelectorPolicy)
    (limit : Option Nat) (world : ω) {o : BranchOutcome}
    (hdone : (plan.runWithin c policy limit world).ending = .done o) :
    Recorded o (plan.runWithin c policy limit world).state.progress.events
        (plan.notes c policy limit world) ∧
      ∀ ctx budget, (provisionedStages c ctx budget).WhenCut fun s =>
        ∃ stage ∈ mainSequence, ∃ started, s.inFlight = some (stage, started) := by
  refine ⟨?_, fun ctx budget => whenCut_provisionedStages c ctx budget⟩
  cases plan.ends c policy limit world with
  | follows h =>
    rw [h.ending] at hdone
    obtain rfl := Ending.done.inj hdone
    rw [h.events, h.notes]
    exact h.course.recorded
  | stops _ hbroken =>
    rw [hbroken] at hdone
    cases hdone
  | lost _ hending => exact absurd hdone (hending o)

theorem BranchPlan.records_tell_slowCleanup :
    ∃ o,
      (hourPlan.runWithin (Rehearsal.collaborators slowCleanup) .firstMatch (some 5000) []).ending =
        .done o ∧
      Recorded o
        (hourPlan.runWithin (Rehearsal.collaborators slowCleanup) .firstMatch (some 5000)
          []).state.progress.events
        (hourPlan.notes (Rehearsal.collaborators slowCleanup) .firstMatch (some 5000) []) ∧
      o.status = .degraded ∧
      o.stages.map (·.stage) = [.checkout, .computeBudget, .createRunner, .runTest, .collectLogs,
        .cleanResources, .cleanResources, .sendEmail] :=
  ⟨_, rfl, (BranchPlan.records_tell hourPlan (Rehearsal.collaborators slowCleanup) .firstMatch
    (some 5000) [] rfl).1, rfl, rfl⟩

end Stagehand
