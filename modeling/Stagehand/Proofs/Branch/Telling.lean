import Stagehand.Proofs.Branch.CallOrder
import Stagehand.Proofs.Branch.Records

/-!
# What the events tell

The events of a branch agree with its outcome, wherever its limit passes. A stage that is told to
have started is told to be over by the very next event, even if it was cut. What is told of the
stages are the records of the main sequence, but for those that were passed over; what is told of
the sweep are the records of the sweep; and the archive comes between the two.

One stage is over without having started: the test of a branch whose runner is unusable.

Main result: `BranchPlan.events_tell`.
-/

namespace Stagehand

open Rehearsal (Call CallNote)

/-! ## What is told -/

namespace Event

/-- The record of a stage that is told to be over. -/
def completed? : Event → Option StageRecord
  | stageCompleted _ r => some r
  | _ => none

/-- The stage that is told to have been swept, and whether it succeeded. -/
def sweep? : Event → Option (Stage × Bool)
  | sweepInvoked _ stage success => some (stage.toStage, success)
  | _ => none

/-- Whether the artifacts are told to have been archived. -/
def archived? : Event → Option Bool
  | artifactsArchived _ success => some success
  | _ => none

end Event

def toldRecords (events : List Event) : List StageRecord := events.filterMap (·.completed?)

def toldSweeps (events : List Event) : List (Stage × Bool) := events.filterMap (·.sweep?)

def toldArchives (events : List Event) : List Bool := events.filterMap (·.archived?)

@[simp] theorem toldRecords_append (events events' : List Event) :
    toldRecords (events ++ events') = toldRecords events ++ toldRecords events' :=
  List.filterMap_append

@[simp] theorem toldSweeps_append (events events' : List Event) :
    toldSweeps (events ++ events') = toldSweeps events ++ toldSweeps events' :=
  List.filterMap_append

@[simp] theorem toldArchives_append (events events' : List Event) :
    toldArchives (events ++ events') = toldArchives events ++ toldArchives events' :=
  List.filterMap_append

/-- A stage that starts is over by the next event. -/
def ClosesStages (events : List Event) : Prop :=
  ∀ before axis stage after, events = before ++ .stageStarted axis stage :: after →
    ∃ r later, after = .stageCompleted axis r :: later ∧ r.stage = stage

/-- A test that is over without having started, after its runner was unusable. -/
structure IsRefusal (notes : List Note) (created tested : StageRecord) : Prop where
  created_stage : created.stage = .createRunner
  reason : ∃ e time, .returned .createRunner (.error e) time ∈ notes ∧ e.isFatal = true ∧
    created.error = some e.message ∧
    tested = .failed .runTest .failed 0 ("runner address unavailable: " ++ e.message)

/-- A stage that is over has started in the event before, or is a test that was refused. -/
def OpensStages (notes : List Note) (events : List Event) : Prop :=
  ∀ before axis r after, events = before ++ .stageCompleted axis r :: after →
    before.getLast? = some (.stageStarted axis r.stage) ∨
      ∃ created, before.getLast? = some (.stageCompleted axis created) ∧ IsRefusal notes created r

section Append

variable {notes : List Note} {events events' : List Event}

theorem ClosesStages.append (h : ClosesStages events) (h' : ClosesStages events') :
    ClosesStages (events ++ events') := by
  intro before axis stage after hsplit
  obtain ⟨later, hevents, rfl⟩ | ⟨between, -, hevents'⟩ := append_eq_append_cons hsplit
  · obtain ⟨r, rest, rfl, hstage⟩ := h before axis stage later hevents
    exact ⟨r, rest ++ events', rfl, hstage⟩
  · exact h' between axis stage after hevents'

theorem OpensStages.append (h : OpensStages notes events) (h' : OpensStages notes events') :
    OpensStages notes (events ++ events') := by
  intro before axis r after hsplit
  obtain ⟨later, hevents, rfl⟩ | ⟨between, rfl, hevents'⟩ := append_eq_append_cons hsplit
  · exact h before axis r later hevents
  · obtain hlast | ⟨created, hlast, hrefusal⟩ := h' between axis r after hevents'
    · exact .inl (by rw [List.getLast?_append, hlast, Option.some_or])
    · exact .inr ⟨created, by rw [List.getLast?_append, hlast, Option.some_or], hrefusal⟩

theorem closesStages_of_started (h : startedStages events = []) : ClosesStages events := by
  rintro before axis stage after rfl
  rw [startedStages_append] at h
  cases (List.append_eq_nil_iff.1 h).2

/-- Events that tell of no stage open what they close. -/
theorem opensStages_of_toldRecords (h : toldRecords events = []) : OpensStages notes events := by
  rintro before axis r after rfl
  rw [toldRecords_append] at h
  cases (List.append_eq_nil_iff.1 h).2

end Append

/-- What the events of a branch tell of its outcome. -/
structure Told (plan : BranchPlan) (o : BranchOutcome) (events : List Event) (notes : List Note) :
    Prop where
  own : ∀ e ∈ events, e.axis? = some plan.axis
  framed : ∃ middle, events = .branchStarted plan.axis plan.testId :: middle ++
    [.branchCompleted plan.axis o.status o.duration]
  closes : ClosesStages events
  opens : OpensStages notes events
  /-- No stage is told to be over twice. -/
  once : ((toldRecords events).map (·.stage)).Nodup
  /-- The records of the main sequence are told, and then those of the sweep. -/
  records : ∃ main swept, o.stages = main ++ swept ∧
    toldRecords events = main.filter (fun r => r.status ≠ .skipped) ∧
    toldSweeps events = swept.map fun r => (r.stage, decide (r.status = .succeeded))
  archived : toldArchives events = if o.error = none then [o.artifactsCollected] else []
  /-- The archive is told before any sweep. -/
  archivedFirst : ∀ before axis stage success after,
    events = before ++ .sweepInvoked axis stage success :: after →
      .artifactsArchived axis o.artifactsCollected ∈ before

/-! ## Steps -/

namespace StageStep

variable {notes : List Note} (axis : String)

theorem warnings_eq (step : StageStep) :
    step.warnings axis = [] ∨
      step.warnings axis = [.log .warning "runner unavailable, running locally" (some axis)] := by
  rw [warnings]
  split
  · split
    · exact .inl rfl
    · exact .inr rfl
  · exact .inl rfl

/-- A step that tells of its stage tells that it started, that it is over, and warnings. -/
theorem events_eq (step : StageStep) :
    (∃ stage reason, step = passedOver stage reason) ∨ (∃ reason, step = refused reason) ∨
      step.events axis =
        [.stageStarted axis step.stage, .stageCompleted axis step.record] ++
        step.warnings axis := by
  cases step with
  | passedOver stage reason => exact .inl ⟨stage, reason, rfl⟩
  | refused reason => exact .inr (.inl ⟨reason, rfl⟩)
  | attempted | computed | cut => exact .inr (.inr rfl)

theorem axis_events {step : StageStep} {e : Event} (h : e ∈ step.events axis) :
    e.axis? = some axis := by
  obtain ⟨_, _, rfl⟩ | ⟨_, rfl⟩ | hevents := step.events_eq axis
  · cases h
  · obtain rfl := List.mem_singleton.1 h
    rfl
  · rw [hevents, List.mem_append] at h
    obtain h | h := h
    · simp only [List.mem_cons, List.not_mem_nil, or_false] at h
      obtain rfl | rfl := h <;> rfl
    · obtain hwarnings | hwarnings := step.warnings_eq axis
      · rw [hwarnings] at h
        cases h
      · rw [hwarnings] at h
        obtain rfl := List.mem_singleton.1 h
        rfl

theorem status_ofResult_ne {α : Type} (stage : Stage) (duration : Nat) (r : RunResult α) :
    (StageRecord.ofResult stage duration r).status ≠ .skipped := by
  cases r with
  | ok => exact nofun
  | error e => cases e <;> exact nofun

theorem status_record_ne {step : StageStep} (h : ∀ stage reason, step ≠ passedOver stage reason) :
    step.record.status ≠ .skipped := by
  cases step with
  | attempted | computed => exact status_ofResult_ne _ _ _
  | passedOver stage reason => exact absurd rfl (h stage reason)
  | refused | cut => exact nofun

/-- Every record is told, but for that of a stage that was passed over. -/
theorem toldRecords_events (step : StageStep) :
    toldRecords (step.events axis) = [step.record].filter fun r => r.status ≠ .skipped := by
  by_cases hpassed : ∃ stage reason, step = passedOver stage reason
  · obtain ⟨stage, reason, rfl⟩ := hpassed
    rfl
  · have hstatus : step.record.status ≠ .skipped :=
      status_record_ne fun stage reason hstep => hpassed ⟨stage, reason, hstep⟩
    have hfilter : ([step.record].filter fun r => r.status ≠ .skipped) = [step.record] := by
      simp [hstatus]
    rw [hfilter]
    obtain hpassed' | ⟨_, rfl⟩ | hevents := step.events_eq axis
    · exact absurd hpassed' hpassed
    · rfl
    · rw [hevents]
      obtain h | h := step.warnings_eq axis <;> rw [h] <;> rfl

theorem unswept_events (step : StageStep) :
    toldSweeps (step.events axis) = [] ∧ toldArchives (step.events axis) = [] := by
  obtain ⟨_, _, rfl⟩ | ⟨_, rfl⟩ | hevents := step.events_eq axis
  · exact ⟨rfl, rfl⟩
  · exact ⟨rfl, rfl⟩
  · rw [hevents]
    obtain h | h := step.warnings_eq axis <;> rw [h] <;> exact ⟨rfl, rfl⟩

theorem closesStages (step : StageStep) : ClosesStages (step.events axis) := by
  obtain ⟨_, _, rfl⟩ | ⟨_, rfl⟩ | hevents := step.events_eq axis
  · exact closesStages_of_started rfl
  · exact closesStages_of_started rfl
  · rw [hevents]
    refine .append ?_ (closesStages_of_started (step.told_warnings axis).1)
    rintro before axis' stage after hsplit
    obtain ⟨rfl, hhead⟩ | ⟨before, rfl, htail⟩ := List.cons_eq_append_iff.1 hsplit
    · cases hhead
      exact ⟨_, [], rfl, rfl⟩
    · simp [List.cons_eq_append_iff] at htail

theorem opensStages {step : StageStep} (h : ∀ reason, step ≠ refused reason) :
    OpensStages notes (step.events axis) := by
  obtain ⟨_, _, rfl⟩ | ⟨reason, rfl⟩ | hevents := step.events_eq axis
  · exact opensStages_of_toldRecords rfl
  · exact absurd rfl (h reason)
  · rw [hevents]
    refine .append ?_ (opensStages_of_toldRecords ?_)
    · rintro before axis' r after hsplit
      obtain ⟨rfl, hhead⟩ | ⟨before, rfl, htail⟩ := List.cons_eq_append_iff.1 hsplit
      · cases hhead
      · obtain ⟨rfl, hhead⟩ | ⟨before, rfl, htail⟩ := List.cons_eq_append_iff.1 htail
        · cases hhead
          exact .inl rfl
        · simp at htail
    · obtain h | h := step.warnings_eq axis <;> rw [h] <;> rfl

end StageStep

/-! ### Several steps -/

section Steps

variable {notes : List Note} (axis : String)

theorem toldRecords_steps (steps : List StageStep) :
    toldRecords (steps.flatMap (·.events axis)) =
      (steps.map (·.record)).filter fun r => r.status ≠ .skipped := by
  induction steps with
  | nil => rfl
  | cons step rest ih =>
    rw [List.flatMap_cons, toldRecords_append, step.toldRecords_events, ih, List.map_cons,
      ← List.filter_append, List.singleton_append]

theorem unswept_steps (steps : List StageStep) :
    toldSweeps (steps.flatMap (·.events axis)) = [] ∧
      toldArchives (steps.flatMap (·.events axis)) = [] := by
  induction steps with
  | nil => exact ⟨rfl, rfl⟩
  | cons step rest ih =>
    obtain ⟨hsweeps, harchives⟩ := step.unswept_events axis
    rw [List.flatMap_cons, toldSweeps_append, toldArchives_append, hsweeps, harchives, ih.1, ih.2]
    exact ⟨rfl, rfl⟩

theorem closesStages_steps (steps : List StageStep) :
    ClosesStages (steps.flatMap (·.events axis)) := by
  induction steps with
  | nil => exact closesStages_of_started rfl
  | cons step rest ih =>
    rw [List.flatMap_cons]
    exact (step.closesStages axis).append ih

theorem opensStages_steps {steps : List StageStep}
    (h : ∀ step ∈ steps, ∀ reason, step ≠ .refused reason) :
    OpensStages notes (steps.flatMap (·.events axis)) := by
  induction steps with
  | nil => exact opensStages_of_toldRecords rfl
  | cons step rest ih =>
    rw [List.flatMap_cons]
    exact (StageStep.opensStages axis (h step List.mem_cons_self)).append
      (ih fun step hstep => h step (List.mem_cons_of_mem _ hstep))

/-- A runner is unusable because its creation failed fatally. -/
theorem StageStep.attempted_of_refusal? {step : StageStep} {e : RunError}
    (h : step.refusal? = some e) : ∃ a, step = attempted a ∧ a.stage = .createRunner ∧
      a.ending = .returned (.error e) ∧ e.isFatal = true := by
  cases step with
  | computed | passedOver | refused | cut => cases h
  | attempted a =>
    by_cases hstage : a.stage = .createRunner
    · rw [refusal?, creation?, if_pos hstage, Attempt.result] at h
      cases hending : a.ending with
      | expired =>
        rw [hending] at h
        cases h
      | returned answer =>
        rw [hending] at h
        cases answer with
        | ok => cases h
        | error e' =>
          have hsome : (if e'.isFatal then some e' else none) = some e := h
          rw [Option.ite_none_right_eq_some] at hsome
          obtain ⟨hfatal, ⟨rfl⟩⟩ := hsome
          exact ⟨a, rfl, hstage, hending, hfatal⟩
    · rw [refusal?, creation?_attempted hstage] at h
      cases h

/-- The test that is refused is told right after the runner that it would have had. -/
theorem opensStages_refused {created : StageStep} {reason : RunError} (hfits : created.Fits)
    (hrefusal : created.refusal? = some reason) (hnotes : created.notes ⊆ notes) :
    OpensStages notes (created.events axis ++ (StageStep.refused reason).events axis) := by
  obtain ⟨a, rfl, hstage, hending, hfatal⟩ := StageStep.attempted_of_refusal? hrefusal
  have hcall : a.call.call = .createRunner := (Stage.createRunner_iff hfits).2 hstage
  have hnote : .returned .createRunner (.error reason) a.stop ∈ notes := by
    refine hnotes (List.mem_cons_of_mem _ (List.mem_singleton.2 ?_))
    rw [hending, hcall]
    rfl
  have hresult : a.result = .error reason := by
    rw [Attempt.result, hending]
    rfl
  have hcreation : (StageStep.attempted a).creation? = some (.error reason) := by
    rw [StageStep.creation?, if_pos hstage, hresult]
  have hwarnings : (StageStep.attempted a).warnings axis = [] := by
    rw [StageStep.warnings, hcreation]
    exact if_pos hfatal
  have hevents : (StageStep.attempted a).events axis ++ (StageStep.refused reason).events axis =
      [.stageStarted axis a.stage, .stageCompleted axis a.record,
        .stageCompleted axis (StageStep.refused reason).record] := by
    have hattempted : (StageStep.attempted a).events axis =
        [.stageStarted axis (StageStep.attempted a).stage, .stageCompleted axis a.record] ++
          (StageStep.attempted a).warnings axis := rfl
    rw [hattempted, hwarnings, StageStep.stage_attempted]
    rfl
  have hrefused : IsRefusal notes a.record (StageStep.refused reason).record := by
    refine ⟨a.stage_record.trans hstage, reason, a.stop, hnote, hfatal, ?_, rfl⟩
    rw [Attempt.record, hresult]
    rfl
  rw [hevents]
  -- Each of the three events is taken as the one that tells of a stage that is over.
  rintro before axis' r after hsplit
  obtain ⟨rfl, hhead⟩ | ⟨early, rfl, htail⟩ := List.cons_eq_append_iff.1 hsplit
  · cases hhead
  obtain ⟨rfl, hhead⟩ | ⟨early, rfl, htail'⟩ := List.cons_eq_append_iff.1 htail
  · cases hhead
    exact .inl (congrArg (fun stage => some (Event.stageStarted axis stage)) a.stage_record.symm)
  obtain ⟨rfl, hhead⟩ | ⟨early, rfl, hnone⟩ := List.cons_eq_append_iff.1 htail'
  · cases hhead
    exact .inr ⟨_, rfl, hrefused⟩
  · simp at hnone

end Steps

/-! ## Courses -/

section Courses

variable {ctx : BranchContext} {budget : TimeBudget} {deadline : Option Nat} {limit : Nat}
  {checkedOut : Bool} {before taken steps : List StageStep} {now stop last : Nat}
  {answer : RunResult Unit} {swept : Swept} {notes : List Note} (axis : String)

theorem Takes.ne_refused {stage : Stage} {step : StageStep} {time : Nat}
    (h : Takes ctx budget deadline before now stage step time) (hstage : stage ≠ .runTest)
    (reason : RunError) : step ≠ .refused reason := by
  cases h with
  | attempted | passedOver => exact nofun
  | refused htest => exact absurd htest hstage

theorem Path.ne_refused {stages : List Stage}
    (h : Path ctx budget deadline before now stages taken last) (hstages : .runTest ∉ stages) :
    ∀ step ∈ taken, ∀ reason, step ≠ .refused reason := by
  induction h with
  | nil => exact List.forall_mem_nil _
  | cons htakes _ ih =>
    rw [List.mem_cons, not_or] at hstages
    exact List.forall_mem_cons.2 ⟨htakes.ne_refused (Ne.symm hstages.1), ih hstages.2⟩

theorem Path.opensStages {stages late : List Stage}
    (h : Path ctx budget deadline before now stages taken last)
    (hsequence : mainSequence = stages ++ late) (hbefore : refusalAfter before = none)
    (hnotes : taken.flatMap (·.notes) ⊆ notes) :
    OpensStages notes (taken.flatMap (·.events axis)) := by
  cases h with
  | nil => exact opensStages_of_toldRecords rfl
  | @cons _ _ _ _ created _ _ _ hcreated h =>
  obtain ⟨rfl, hrest⟩ := List.cons.inj hsequence
  have hplain := hcreated.ne_refused (by decide)
  rw [List.flatMap_cons] at hnotes ⊢
  cases h with
  | nil => exact (StageStep.opensStages axis hplain).append (opensStages_of_toldRecords rfl)
  | @cons _ _ _ rest tested _ _ _ htested h =>
  obtain ⟨rfl, hlast⟩ := List.cons.inj hrest
  -- The second stage of the sequence is the test, and no later one can be refused.
  have hlater : .runTest ∉ rest.append late := by
    rw [← hlast]
    decide
  have htests : .runTest ∉ rest := fun hmem => hlater (List.mem_append_left late hmem)
  rw [List.flatMap_cons, ← List.append_assoc]
  refine .append ?_ (opensStages_steps axis (h.ne_refused htests))
  cases htested with
  | attempted => exact (StageStep.opensStages axis hplain).append (StageStep.opensStages axis nofun)
  | passedOver hstage => cases hstage
  | refused _ hreason =>
    rw [refusalAfter_snoc, hbefore, Option.none_or] at hreason
    exact opensStages_refused axis hcreated.fits hreason
      (List.Subset.trans (List.subset_append_left _ _) hnotes)

theorem MainCourse.opensStages
    (h : MainCourse ctx budget limit before now checkedOut taken last)
    (hbefore : refusalAfter before = none) (hnotes : taken.flatMap (·.notes) ⊆ notes) :
    OpensStages notes (taken.flatMap (·.events axis)) := by
  cases h with
  | complete hpath => exact hpath.opensStages axis (List.append_nil _).symm hbefore hnotes
  | cut hsequence hpath hcuts =>
    rw [List.flatMap_append] at hnotes ⊢
    have hearly := List.Subset.trans (List.subset_append_left _ _) hnotes
    refine (hpath.opensStages axis hsequence hbefore hearly).append ?_
    exact opensStages_steps axis (List.forall_mem_singleton.2 nofun)
  | noWorkspace => exact opensStages_of_toldRecords rfl

theorem FinalCourse.opensStages (h : FinalCourse ctx budget limit
    (preparation ctx answer stop budget) now checkedOut steps swept last)
    (hnotes : steps.flatMap (·.notes) ⊆ notes) :
    OpensStages notes (steps.flatMap (·.events axis)) := by
  cases h with
  | intro hmain _ _ =>
    rw [List.flatMap_append] at hnotes ⊢
    have hlate := List.Subset.trans (List.subset_append_right _ _) hnotes
    refine .append ?_ (hmain.opensStages axis rfl hlate)
    refine opensStages_steps axis
      (List.forall_mem_cons.2 ⟨nofun, List.forall_mem_singleton.2 nofun⟩)

theorem FinalCourse.terminal?_attempts {before : List StageStep}
    (h : FinalCourse ctx budget limit before now checkedOut steps swept last) :
    ∀ a ∈ swept.attempts, a.stage.terminal?.isSome = true := by
  cases h with
  | intro _ _ hsweeps =>
    intro a ha
    have hstage : a.stage ∈ swept.attempts.map (·.stage) := List.mem_map_of_mem ha
    rw [hsweeps.map_stage, List.mem_map] at hstage
    obtain ⟨stage, -, hstage⟩ := hstage
    rw [← hstage, TerminalStage.terminal?_toStage]
    rfl

end Courses

/-! ## The end -/

section Ends

variable (axis : String)

/-- What a sweep tells is the archive, and the stages that it ran. -/
theorem Swept.mem_events {swept : Swept} {e : Event} (h : e ∈ swept.events axis) :
    e = .artifactsArchived axis swept.archiving.succeeded ∨
      ∃ stage success, e = .sweepInvoked axis stage success := by
  rw [events, List.mem_cons, List.mem_filterMap] at h
  obtain rfl | ⟨a, -, ha⟩ := h
  · exact .inl rfl
  · obtain ⟨stage, -, rfl⟩ := Option.map_eq_some_iff.1 ha
    exact .inr ⟨stage, _, rfl⟩

theorem toldRecords_swept (swept : Swept) : toldRecords (swept.events axis) = [] := by
  refine List.filterMap_eq_nil_iff.2 fun e he => ?_
  obtain rfl | ⟨stage, success, rfl⟩ := swept.mem_events axis he <;> rfl

theorem toldArchives_swept (swept : Swept) :
    toldArchives (swept.events axis) = [swept.archiving.succeeded] := by
  have hlater : toldArchives (swept.attempts.filterMap (·.sweepEvent? axis)) = [] := by
    refine List.filterMap_eq_nil_iff.2 fun e he => ?_
    obtain ⟨a, -, ha⟩ := List.mem_filterMap.1 he
    obtain ⟨stage, -, rfl⟩ := Option.map_eq_some_iff.1 ha
    rfl
  exact congrArg (swept.archiving.succeeded :: ·) hlater

theorem succeeded_ofResult {α : Type} (stage : Stage) (duration : Nat) (r : RunResult α) :
    decide ((StageRecord.ofResult stage duration r).status = .succeeded) = r.toOption.isSome := by
  cases r with
  | ok => rfl
  | error e => cases e <;> rfl

theorem toldSweeps_swept {swept : Swept}
    (h : ∀ a ∈ swept.attempts, a.stage.terminal?.isSome = true) :
    toldSweeps (swept.events axis) =
      swept.records.map fun r => (r.stage, decide (r.status = .succeeded)) := by
  have htold : ∀ attempts : List Attempt, (∀ a ∈ attempts, a.stage.terminal?.isSome = true) →
      toldSweeps (attempts.filterMap (·.sweepEvent? axis)) =
        (attempts.map (·.record)).map fun r => (r.stage, decide (r.status = .succeeded)) := by
    intro attempts
    induction attempts with
    | nil => exact fun _ => rfl
    | cons a rest ih =>
      intro hall
      obtain ⟨stage, hstage⟩ := Option.isSome_iff_exists.1 (hall a List.mem_cons_self)
      have hrest := ih fun a ha => hall a (List.mem_cons_of_mem _ ha)
      have hevent : a.sweepEvent? axis =
          some (.sweepInvoked axis stage a.result.toOption.isSome) := by
        rw [Attempt.sweepEvent?, hstage]
        rfl
      have hsame : stage.toStage = a.record.stage := by
        rw [a.stage_record]
        revert hstage
        cases a.stage <;> rintro ⟨⟩ <;> rfl
      have hsuccess : decide (a.record.status = .succeeded) = a.result.toOption.isSome :=
        succeeded_ofResult a.stage _ a.result
      rw [List.filterMap_cons_some hevent, List.map_cons, List.map_cons, hsuccess, ← hsame, ← hrest]
      rfl
  exact htold swept.attempts h

/-- What a branch tells after its main sequence. -/
def endEvents : RunResult Swept → List Event
  | .ok swept => swept.events axis
  | .error e => [.log .error e.message (some axis)]

theorem axis_endEvents {result : RunResult Swept} {e : Event} (h : e ∈ endEvents axis result) :
    e.axis? = some axis := by
  cases result with
  | error =>
    obtain rfl := List.mem_singleton.1 h
    rfl
  | ok swept => obtain rfl | ⟨stage, success, rfl⟩ := swept.mem_events axis h <;> rfl

theorem unstarted_endEvents (result : RunResult Swept) :
    startedStages (endEvents axis result) = [] ∧ toldRecords (endEvents axis result) = [] := by
  cases result with
  | error => exact ⟨rfl, rfl⟩
  | ok swept => exact ⟨(swept.told axis).1, toldRecords_swept axis swept⟩

end Ends

/-! ## The whole -/

section Whole

variable {plan : BranchPlan} {steps : List StageStep} {result : RunResult Swept} {last : Nat}

theorem eventsOf_eq (plan : BranchPlan) (steps : List StageStep) (result : RunResult Swept)
    (last : Nat) :
    eventsOf plan steps result last =
      (.branchStarted plan.axis plan.testId :: steps.flatMap (·.events plan.axis)) ++
        (endEvents plan.axis result ++
          [.branchCompleted plan.axis (outcomeOf plan steps result last).status last]) := by
  cases result <;> exact List.append_assoc _ _ _

theorem axis_eventsOf {e : Event} (h : e ∈ eventsOf plan steps result last) :
    e.axis? = some plan.axis := by
  rw [eventsOf_eq, List.mem_append, List.mem_cons, List.mem_flatMap, List.mem_append,
    List.mem_singleton] at h
  obtain (rfl | ⟨step, -, he⟩) | he | rfl := h
  · rfl
  · exact step.axis_events plan.axis he
  · exact axis_endEvents plan.axis he
  · rfl

theorem toldRecords_eventsOf :
    toldRecords (eventsOf plan steps result last) =
      (steps.map (·.record)).filter fun r => r.status ≠ .skipped := by
  have hbegin : toldRecords (.branchStarted plan.axis plan.testId ::
      steps.flatMap (·.events plan.axis)) = toldRecords (steps.flatMap (·.events plan.axis)) := rfl
  rw [eventsOf_eq, toldRecords_append, toldRecords_append, (unstarted_endEvents _ _).2, hbegin,
    toldRecords_steps]
  exact List.append_nil _

theorem closesStages_eventsOf : ClosesStages (eventsOf plan steps result last) := by
  rw [eventsOf_eq, ← List.singleton_append]
  refine .append (.append (closesStages_of_started rfl) (closesStages_steps _ _)) ?_
  exact .append (closesStages_of_started (unstarted_endEvents _ _).1) (closesStages_of_started rfl)

theorem OpensStages.eventsOf {notes : List Note}
    (h : OpensStages notes (steps.flatMap (·.events plan.axis))) :
    OpensStages notes (eventsOf plan steps result last) := by
  rw [eventsOf_eq, ← List.singleton_append]
  refine .append (.append (opensStages_of_toldRecords rfl) h) ?_
  exact .append (opensStages_of_toldRecords (unstarted_endEvents _ _).2)
    (opensStages_of_toldRecords rfl)

theorem unswept_eventsOf :
    toldSweeps (eventsOf plan steps result last) = toldSweeps (endEvents plan.axis result) ∧
      toldArchives (eventsOf plan steps result last) =
        toldArchives (endEvents plan.axis result) := by
  obtain ⟨hsweeps, harchives⟩ := unswept_steps plan.axis steps
  rw [eventsOf_eq, toldSweeps_append, toldSweeps_append, toldArchives_append, toldArchives_append,
    ← List.singleton_append, toldSweeps_append, toldArchives_append, hsweeps, harchives]
  exact ⟨List.append_nil _, List.append_nil _⟩

/-- The archive is told before any sweep. -/
theorem archived_of_swept {before after : List Event} {axis : String} {stage : TerminalStage}
    {success : Bool}
    (h : eventsOf plan steps result last = before ++ .sweepInvoked axis stage success :: after) :
    .artifactsArchived axis (outcomeOf plan steps result last).artifactsCollected ∈ before := by
  have haxis : axis = plan.axis := by
    have hmem : .sweepInvoked axis stage success ∈ eventsOf plan steps result last :=
      h ▸ List.mem_append_right _ List.mem_cons_self
    exact Option.some.inj (axis_eventsOf hmem)
  rw [eventsOf_eq] at h
  -- No step tells of a sweep, so the event is behind them, where the archive comes first.
  obtain ⟨later, hmain, -⟩ | ⟨between, rfl, hend⟩ := append_eq_append_cons h
  · have hnone : toldSweeps (.branchStarted plan.axis plan.testId ::
        steps.flatMap (·.events plan.axis)) = [] := (unswept_steps plan.axis steps).1
    rw [hmain, toldSweeps_append] at hnone
    cases (List.append_eq_nil_iff.1 hnone).2
  · refine List.mem_append_right _ ?_
    cases result with
    | error e =>
      have hnone := congrArg toldSweeps hend
      rw [toldSweeps_append between] at hnone
      cases (List.append_eq_nil_iff.1 hnone.symm).2
    | ok swept =>
      obtain ⟨rfl, hfirst⟩ | ⟨between, rfl, -⟩ := List.cons_eq_append_iff.1 hend
      · cases hfirst
      · exact haxis ▸ List.mem_cons_self

/-- The events of a branch tell what it came to. -/
theorem told_of_steps {notes : List Note}
    (hopens : OpensStages notes (steps.flatMap (·.events plan.axis)))
    (hstages : steps.map (·.stage) <+: Stage.sequence)
    (hterminal : ∀ swept, result = .ok swept →
      ∀ a ∈ swept.attempts, a.stage.terminal?.isSome = true) :
    Told plan (outcomeOf plan steps result last) (eventsOf plan steps result last) notes := by
  have hunswept : toldSweeps (eventsOf plan steps result last) = _ ∧
      toldArchives (eventsOf plan steps result last) = _ := unswept_eventsOf
  obtain ⟨hsweeps, harchives⟩ := hunswept
  constructor
  case own => exact fun e he => axis_eventsOf he
  case framed =>
    refine ⟨steps.flatMap (·.events plan.axis) ++ endEvents plan.axis result, ?_⟩
    rw [eventsOf_eq, List.cons_append, List.cons_append, List.append_assoc]
    rfl
  case closes => exact closesStages_eventsOf
  case opens => exact hopens.eventsOf
  case once =>
    rw [toldRecords_eventsOf]
    -- The records that are told are some of those of the steps, which are of different stages.
    have hsublist := (List.filter_sublist (p := fun r : StageRecord => r.status ≠ .skipped)
      (l := steps.map (·.record))).map (·.stage)
    rw [List.map_map] at hsublist
    exact (hsublist.trans hstages.sublist).nodup (by decide)
  case records =>
    rw [toldRecords_eventsOf, hsweeps]
    cases result with
    | error => exact ⟨steps.map (·.record), [], rfl, rfl, rfl⟩
    | ok swept =>
      exact ⟨steps.map (·.record), swept.records, rfl, rfl,
        toldSweeps_swept _ (hterminal swept rfl)⟩
  case archived =>
    rw [harchives]
    cases result with
    | error => rfl
    | ok swept => exact toldArchives_swept _ swept
  case archivedFirst => exact fun _ _ _ _ _ h => archived_of_swept h

theorem Course.told {policy : SelectorPolicy} {limit : Option Nat}
    (h : Course plan policy limit steps result last) :
    Told plan (outcomeOf plan steps result last) (eventsOf plan steps result last)
      (notesOf steps result) := by
  have hplain : ∀ {steps : List StageStep}, (∀ step ∈ steps, ∀ reason, step ≠ .refused reason) →
      OpensStages (notesOf steps result) (steps.flatMap (·.events plan.axis)) :=
    opensStages_steps plan.axis
  -- A branch that ends early has not come to its test, so that none was refused.
  cases h with
  | unresolved =>
    refine told_of_steps (hplain (List.forall_mem_nil _)) List.nil_prefix ?_
    rintro _ ⟨⟩
  | noCheckout =>
    refine told_of_steps (hplain (List.forall_mem_singleton.2 ?_)) ?_ ?_
    · rintro _ ⟨⟩
    · exact List.prefix_append [Stage.checkout] _
    · rintro _ ⟨⟩
  | noBudget =>
    refine told_of_steps
      (hplain (List.forall_mem_cons.2 ⟨?_, List.forall_mem_singleton.2 ?_⟩)) ?_ ?_
    · rintro _ ⟨⟩
    · rintro _ ⟨⟩
    · rw [List.map_cons, StageStep.stage_attempted]
      exact List.prefix_append [Stage.checkout, .computeBudget] _
    · rintro _ ⟨⟩
  | finalized _ _ _ hfinal =>
    refine told_of_steps (hfinal.opensStages plan.axis (List.subset_append_left _ _))
      hfinal.map_stage ?_
    rintro _ ⟨rfl⟩
    exact hfinal.terminal?_attempts

end Whole

section Branch

open Timed BranchState

variable {ω : Type} {c : Collaborators ω}

/-- A branch that waits for its checkout has told that it started, and nothing else. -/
theorem BranchPlan.Awaits.events (hc : c.Unbreaking) {plan : BranchPlan} {policy : SelectorPolicy}
    {limit : Option Nat} {world : ω} {config : RunConfiguration}
    (h : plan.Awaits c policy limit world config) :
    (plan.runWithin c policy limit world).state.progress.events =
      [.branchStarted plan.axis plan.testId, .stageStarted plan.axis .checkout] := by
  have hrun : (runBranch c policy limit plan).Reaches none 0 { progress := { world } }
      (fun _ _ _ => False) (fun _ s => s.progress.events =
        [.branchStarted plan.axis plan.testId, .stageStarted plan.axis .checkout]) := by
    simp only [runBranch, runStages, h.resolve, reaches_bind, reaches_now, reaches_tell,
      reaches_attempt, outside, onProgress, reaches_onPart isPart_progress, Progress.outside,
      reaches_onPart Progress.isPart_world]
    refine (hc.checkout (plan.context config)).reaches_run.mono (fun _ _ _ hdone => ?_)
      fun _ _ _ => rfl
    have hcut := h.checkout.symm.trans (congrArg Ended.ending hdone)
    cases hcut
  obtain ⟨_, _, hfalse⟩ | ⟨-, hevents⟩ := hrun.ends
  · exact hfalse.elim
  · exact hevents

end Branch

/-- **The events of a branch agree with its outcome**, whatever its collaborators answer, however
long they take, and wherever its limit passes. A branch that comes to no outcome waits for its
checkout, and has told so. -/
theorem BranchPlan.events_tell {ω : Type} {c : Collaborators ω} (hc : c.Unbreaking)
    (plan : BranchPlan) (policy : SelectorPolicy) (limit : Option Nat) (world : ω) :
    (∃ o, (plan.runWithin c policy limit world).ending = .done o ∧
      Told plan o (plan.runWithin c policy limit world).state.progress.events
        (plan.notes c policy limit world)) ∨
    ∃ config, plan.Awaits c policy limit world config ∧
      (plan.runWithin c policy limit world).state.progress.events =
        [.branchStarted plan.axis plan.testId, .stageStarted plan.axis .checkout] := by
  obtain ⟨steps, swept, last, hfollows⟩ | ⟨config, hawaits⟩ :=
    plan.exists_course_or_awaits hc policy limit world
  · refine .inl ⟨_, hfollows.ending, ?_⟩
    rw [hfollows.events, hfollows.notes]
    exact hfollows.course.told
  · exact .inr ⟨config, hawaits, hawaits.events hc⟩

theorem BranchPlan.events_tell_unusableRunner :
    (Rehearsal.collaborators unusableRunner).Unbreaking ∧
      ∃ o,
        (hourPlan.runWithin (Rehearsal.collaborators unusableRunner) .firstMatch none []).ending =
          .done o ∧
        Told hourPlan o
          (hourPlan.runWithin (Rehearsal.collaborators unusableRunner) .firstMatch none
            []).state.progress.events
          (hourPlan.notes (Rehearsal.collaborators unusableRunner) .firstMatch none []) := by
  have hc : (Rehearsal.collaborators unusableRunner).Unbreaking :=
    (Rehearsal.dependable_collaborators (by decide)).unbreaking
  have hends : (hourPlan.runWithin (Rehearsal.collaborators unusableRunner) .firstMatch none
      []).ending.isCut = false := rfl
  refine ⟨hc, ?_⟩
  obtain htold | ⟨_, hawaits, -⟩ :=
    BranchPlan.events_tell hc hourPlan .firstMatch none []
  · exact htold
  · rw [hawaits.ending] at hends
    cases hends

end Stagehand
