import Stagehand.Proofs.Branch.Cleanup
import Stagehand.Proofs.Branch.Limits
import Stagehand.Proofs.Branch.Telling

/-!
# What the mail reports

Of the mails that a finalized branch tries to send, one is sent to its end. It is the last call
of the main sequence, or, if that did not come so far, the last call of the sweep. What it
reports is computed from the stages before the terminal ones, at two places of the program; both
come to the same rule: aborted if the branch limit passed, a failure if one of these stages
failed, and success otherwise.

Main result: `BranchPlan.mail_reports`.
-/

namespace Stagehand

open Rehearsal (Call CallNote)

/-! ## The rule -/

/-- The stages whose failures are reported. -/
def reportedStages : List Stage :=
  [.checkout, .computeBudget, .createRunner, .runTest, .collectLogs]

/-- A stage failed that is reported. -/
def HasFailed (records : List StageRecord) : Prop :=
  ∃ r ∈ records, r.stage ∈ reportedStages ∧ (r.status = .failed ∨ r.status = .timedOut)

instance (records : List StageRecord) : Decidable (HasFailed records) :=
  inferInstanceAs (Decidable (∃ r ∈ records, _))

/-- A record tells that the branch limit passed. -/
def TellsCut (records : List StageRecord) : Prop := ∃ r ∈ records, r.error = some cutText

instance (records : List StageRecord) : Decidable (TellsCut records) :=
  inferInstanceAs (Decidable (∃ r ∈ records, _))

def reportOf (records : List StageRecord) : BuildResult :=
  if TellsCut records then .aborted else if HasFailed records then .failure else .success

/-- The one mail of a branch that is sent to its end, and what it reports. A branch that passed
tried to send no other. -/
inductive Reports (o : BranchOutcome) (notes : List Note) : Prop
  | intro {before after : List Note} {n : CallNote} {ending : Note}
      (notes_eq : notes = before ++ [.called n, ending] ++ after)
      (call : n.call = .sendEmail)
      (finished : ending.finished? = some .sendEmail)
      (once : .sendEmail ∉ finishesOf (before ++ after))
      (build : n.build = some (reportOf o.stages))
      (limit : TellsCut o.stages ↔ ∃ call, .dropped call ∈ notes)
      (passed : o.status = .passed →
        n.build = some .success ∧ .sendEmail ∉ callsOf (before ++ after))

/-! ## Courses -/

section Courses

variable {ctx : BranchContext} {budget : TimeBudget} {deadline : Option Nat} {limit : Nat}
  {checkedOut : Bool} {before steps taken : List StageStep} {now stop last : Nat}
  {answer : RunResult Unit} {swept : Swept} {target : Target} {build : BuildResult}

theorem Sweeps.exists_attempt {stages : List TerminalStage} {attempts : List Attempt}
    {stage : TerminalStage} (h : Sweeps ctx budget target build now stages attempts last)
    (hstage : stage ∈ stages) :
    ∃ early a late time, attempts = early ++ a :: late ∧
      a.call = terminalCall ctx budget target build time stage := by
  induction h with
  | nil => cases hstage
  | @cons now stage' rest a attempts last ha _ ih =>
    obtain rfl | hstage := List.mem_cons.1 hstage
    · exact ⟨[], a, attempts, now, rfl, ha.hcall⟩
    · obtain ⟨early, b, late, time, rfl, hb⟩ := ih hstage
      exact ⟨a :: early, b, late, time, rfl, hb⟩

/-- The main sequence ends with a mail, which reports the stages before the terminal ones. -/
theorem Path.exists_mail (h : Path ctx budget deadline before now mainSequence taken last) :
    ∃ first a, taken = first ++ [.attempted a] ∧ a.call.call = .sendEmail ∧
      a.call.build = some (buildAfter (before ++ taken)) := by
  have hlast : Path ctx budget deadline before now
      ([.createRunner, .runTest, .collectLogs, .cleanResources] ++ [.sendEmail]) taken last := h
  obtain ⟨first, time, second, rfl, -, hmail⟩ := hlast.exists_append
  cases hmail with
  | cons htakes hrest =>
    cases hrest
    cases htakes with
    | passedOver hstage => cases hstage
    | refused hstage => cases hstage
    | @attempted a call hcall ha =>
      have hterminal : (StageStep.attempted a).stage.terminal?.isSome := by
        rw [StageStep.stage_attempted, ha.hstage]
        rfl
      have hsame : a.call = terminalCall ctx budget (targetAfter (before ++ first))
          (buildAfter (before ++ first)) time .sendEmail :=
        ha.hcall.trans (Option.some.inj hcall).symm
      refine ⟨first, a, rfl, by rw [hsame]; rfl, ?_⟩
      rw [← List.append_assoc, buildAfter_snoc_of_terminal hterminal, hsame]
      rfl

theorem sendEmail_mem_missing {early late : List Stage} {stage : Stage}
    (h : mainSequence = early ++ stage :: late) :
    .sendEmail ∈ ((early.filterMap (·.terminal?)).foldl Ledger.mark Ledger.empty).missing := by
  have hlast : .sendEmail ∈ stage :: late := by
    have hend : (stage :: late).getLast? = some .sendEmail := by
      rw [← List.getLast?_append_of_ne_nil early (List.cons_ne_nil stage late), ← h]
      rfl
    exact List.mem_of_getLast? hend
  have hmissing : Stage.sendEmail ∈ ((early.filterMap (·.terminal?)).foldl Ledger.mark
      Ledger.empty).missing.map (·.toStage) := by
    rw [missing_of_mainSequence h]
    exact List.mem_filter.2 ⟨hlast, rfl⟩
  obtain ⟨stage, hstage, hsame⟩ := List.mem_map.1 hmissing
  cases stage with
  | cleanResources => cases hsame
  | sendEmail => exact hstage

theorem Path.ledgerAfter_cut {stages : List Stage} {stage : Stage} {call : CallNote}
    {time : Nat}
    (h : Path ctx budget deadline (preparation ctx answer stop budget) now stages taken last) :
    ledgerAfter (preparation ctx answer stop budget ++ (taken ++ [.cut stage call time])) =
      (stages.filterMap (·.terminal?)).foldl Ledger.mark Ledger.empty := by
  have hnone : (preparation ctx answer stop budget).filterMap (·.marked?) = [] := rfl
  rw [ledgerAfter, List.filterMap_append, List.filterMap_append, hnone, List.nil_append,
    h.filterMap_marked?]
  exact congrArg (List.foldl Ledger.mark Ledger.empty) (List.append_nil _)

/-- **The mail that is sent to its end** reports a cut, or the stages before the terminal ones. -/
theorem FinalCourse.exists_mail (h : FinalCourse ctx budget limit
    (preparation ctx answer stop budget) now checkedOut steps swept last) :
    ∃ (early : List Note) (a : Attempt) (late : List Note),
      notesOf steps (.ok swept) = early ++ a.notes ++ late ∧
      a.call.call = .sendEmail ∧
      a.call.build = some (if steps.any (·.isCut) then .aborted else buildAfter steps) := by
  cases h with
  | @intro taken time _ _ hmain _ hsweeps =>
    -- Where the main sequence did not send its mail to the end, the sweep does.
    have hswept : ∀ build, .sendEmail ∈ (ledgerAfter (preparation ctx answer stop budget ++
          taken)).missing →
        finalBuild (preparation ctx answer stop budget ++ taken) = build →
        ∃ (early : List Note) (a : Attempt) (late : List Note),
          notesOf (preparation ctx answer stop budget ++ taken) (.ok swept) =
            early ++ a.notes ++ late ∧
          a.call.call = .sendEmail ∧ a.call.build = some build := by
      rintro build hmissing rfl
      obtain ⟨early, a, late, time, hattempts, hcall⟩ := hsweeps.exists_attempt hmissing
      refine ⟨(preparation ctx answer stop budget ++ taken).flatMap (·.notes) ++
        (swept.archiving.notes ++ early.flatMap (·.notes)), a, late.flatMap (·.notes), ?_,
        by rw [hcall]; rfl, by rw [hcall]; rfl⟩
      simp only [notesOf, Swept.notes, hattempts, List.flatMap_append, List.flatMap_cons,
        List.append_assoc]
    cases hmain with
    | complete hpath =>
      obtain ⟨first, a, htaken, hcall, hbuild⟩ := hpath.exists_mail
      have hcut : (preparation ctx answer stop budget ++ taken).any (·.isCut) = false := by
        rw [List.any_append, hpath.any_isCut]
        rfl
      rw [hcut, if_neg Bool.false_ne_true]
      refine ⟨(preparation ctx answer stop budget ++ first).flatMap (·.notes), a, swept.notes, ?_,
        hcall, hbuild⟩
      rw [notesOf, htaken, ← List.append_assoc, List.flatMap_append, List.flatMap_singleton]
      rfl
    | @cut early late stage taken _ call _ hsequence hpath hcuts =>
      have hcut : (preparation ctx answer stop budget ++
          (taken ++ [StageStep.cut stage call time])).any (·.isCut) = true := by
        rw [List.any_append, List.any_append]
        exact (congrArg _ (Bool.or_true _)).trans (Bool.or_true _)
      refine hswept _ ?_ ?_
      · rw [hpath.ledgerAfter_cut]
        exact sendEmail_mem_missing hsequence
      · rw [finalBuild, hcut]
        rfl
    | noWorkspace =>
      have hplain : ∀ step ∈ preparation ctx answer stop budget ++
          stagesOnWorkspace.map (.passedOver · "checkout failed"), step.stage.terminal? = none := by
        refine List.forall_mem_append.2 ⟨terminal?_preparation, ?_⟩
        simp [stagesOnWorkspace, StageStep.stage, StageStep.record, StageRecord.skipped,
          Stage.terminal?]
      refine hswept _ (Ledger.mem_missing.2 rfl) ?_
      rw [buildAfter_of_plain hplain]
      rfl

/-! ## The records -/

theorem exists_dropped_iff :
    (∃ call, .dropped call ∈ steps.flatMap (·.notes)) ↔ steps.any (·.isCut) = true := by
  have hstep : ∀ step : StageStep, (∃ call, .dropped call ∈ step.notes) ↔ step.isCut = true := by
    intro step
    cases step with
    | attempted a =>
      refine iff_of_false ?_ Bool.false_ne_true
      rintro ⟨call, hcall⟩
      rw [StageStep.notes, ← mem_dropsOf, dropsOf_attempt] at hcall
      cases hcall
    | cut stage call stop =>
      exact iff_of_true ⟨call.call, List.mem_cons_of_mem _ List.mem_cons_self⟩ rfl
    | computed | passedOver | refused =>
      refine iff_of_false ?_ Bool.false_ne_true
      rintro ⟨call, ⟨⟩⟩
  simp only [List.mem_flatMap, List.any_eq_true, ← hstep]
  constructor
  · rintro ⟨call, step, hmem, hcall⟩
    exact ⟨step, hmem, call, hcall⟩
  · rintro ⟨step, hmem, call, hcall⟩
    exact ⟨call, step, hmem, hcall⟩

theorem FinalCourse.tellsCut_iff (h : FinalCourse ctx budget limit
    (preparation ctx answer stop budget) now checkedOut steps swept last) (plan : BranchPlan) :
    TellsCut (outcomeOf plan steps (.ok swept) last).stages ↔ steps.any (·.isCut) = true := by
  constructor
  · rintro ⟨r, hr, herror⟩
    obtain hr | hr := List.mem_append.1 hr
    · obtain ⟨step, hstep, rfl⟩ := List.mem_map.1 hr
      cases hcut : step.isCut with
      | true => exact List.any_eq_true.2 ⟨step, hstep, hcut⟩
      | false =>
        cases h with
        | intro hmain _ _ =>
          obtain hstep | hstep := List.mem_append.1 hstep
          · exact absurd herror (uncut_preparation step hstep)
          · exact absurd herror (hmain.uncut step hstep hcut)
    · obtain ⟨a, -, rfl⟩ := List.mem_map.1 hr
      exact absurd herror (uncut_ofResult _ _ _)
  · rintro hany
    obtain ⟨step, hstep, hcut⟩ := List.any_eq_true.1 hany
    cases step with
    | cut => exact ⟨_, List.mem_append_left _ (List.mem_map_of_mem hstep), rfl⟩
    | attempted | computed | passedOver | refused => cases hcut

theorem mem_reportedStages {stage : Stage} : stage ∈ reportedStages ↔ stage.terminal? = none := by
  cases stage <;> decide

/-- The stages that count for the report are those before the terminal ones. -/
theorem FinalCourse.buildAfter_eq {before : List StageStep}
    (h : FinalCourse ctx budget limit before now checkedOut steps swept last) (plan : BranchPlan) :
    buildAfter steps =
      if HasFailed (outcomeOf plan steps (.ok swept) last).stages then .failure else .success := by
  have hiff : HasFailed (outcomeOf plan steps (.ok swept) last).stages ↔
      (steps.any fun step => step.stage.terminal?.isNone && step.isFailure) = true := by
    simp only [HasFailed, mem_reportedStages, List.any_eq_true, Bool.and_eq_true,
      Option.isNone_iff_eq_none]
    constructor
    · rintro ⟨r, hr, hstage, hstatus⟩
      obtain hr | hr := List.mem_append.1 hr
      · obtain ⟨step, hstep, rfl⟩ := List.mem_map.1 hr
        exact ⟨step, hstep, hstage, StageStatus.isFailure_iff.2 hstatus⟩
      · obtain ⟨a, ha, rfl⟩ := List.mem_map.1 hr
        have hterminal := h.terminal?_attempts a ha
        rw [← a.stage_record, hstage] at hterminal
        cases hterminal
    · rintro ⟨step, hstep, hstage, hfailed⟩
      exact ⟨step.record, List.mem_append_left _ (List.mem_map_of_mem hstep), hstage,
        StageStatus.isFailure_iff.1 hfailed⟩
  rw [buildAfter]
  simp only [hiff]

theorem FinalCourse.dropsOf_swept {before : List StageStep}
    (h : FinalCourse ctx budget limit before now checkedOut steps swept last) :
    dropsOf swept.notes = [] := by
  cases h with
  | intro _ harchives hsweeps =>
    rw [Swept.notes, dropsOf_append, harchives.callsOf_notes.2.2, hsweeps.callsOf_notes.2.2]
    rfl

theorem FinalCourse.exists_dropped_iff {before : List StageStep}
    (h : FinalCourse ctx budget limit before now checkedOut steps swept last) :
    (∃ call, .dropped call ∈ notesOf steps (.ok swept)) ↔ steps.any (·.isCut) = true := by
  rw [← Stagehand.exists_dropped_iff]
  refine exists_congr fun call => ?_
  rw [notesOf, ← mem_dropsOf, ← mem_dropsOf, dropsOf_append, h.dropsOf_swept, List.append_nil]

theorem FinalCourse.isFailure_of_passed {before : List StageStep}
    (h : FinalCourse ctx budget limit before now checkedOut steps swept last) {plan : BranchPlan}
    (hpassed : (outcomeOf plan steps (.ok swept) last).status = .passed) :
    steps.any (·.isFailure) = false := by
  have hstatus := (h.finalStatus (steps.any (·.isFailure))).symm.trans hpassed
  cases hfailed : steps.any (·.isFailure) with
  | false => rfl
  | true =>
    rw [hfailed, if_pos rfl] at hstatus
    cases hstatus

theorem not_mem_of_count_eq_one {call : Call} {early late : List Call}
    (h : (early ++ [call] ++ late).count call = 1) : call ∉ early ++ late := by
  rw [← List.count_eq_zero]
  simp only [List.count_append, List.count_singleton_self] at h ⊢
  omega

/-- Every finalized course reports what its records tell. -/
theorem FinalCourse.reports (h : FinalCourse ctx budget limit
    (preparation ctx answer stop budget) now checkedOut steps swept last) (plan : BranchPlan) :
    Reports (outcomeOf plan steps (.ok swept) last) (notesOf steps (.ok swept)) := by
  obtain ⟨early, a, late, hnotes, hcall, hbuild⟩ := h.exists_mail
  have hfinished : finishesOf a.notes = [.sendEmail] := by rw [finishesOf_attempt, hcall]
  have hcalled : callsOf a.notes = [.sendEmail] := by rw [callsOf_attempt, hcall]
  obtain ⟨hfinishes, hcalls⟩ := (h.partedBy plan).count .sendEmail
  have honce := h.finishesOnce .sendEmail
  -- The mail was sent before the end, but counts the same stages as the final records.
  have hreport : a.call.build = some (reportOf (outcomeOf plan steps (.ok swept) last).stages) := by
    rw [hbuild, reportOf, h.buildAfter_eq plan]
    simp only [h.tellsCut_iff plan]
  constructor
  case notes_eq => exact hnotes
  case call => exact hcall
  case finished =>
    rw [hcall]
    cases a.ending <;> rfl
  case once =>
    rw [honce.finishes, hnotes, finishesOf_append, finishesOf_append, hfinished] at hfinishes
    rw [finishesOf_append]
    exact not_mem_of_count_eq_one hfinishes
  case build => exact hreport
  case limit => rw [h.exists_dropped_iff, h.tellsCut_iff plan]
  case passed =>
    intro hpassed
    have hfailed := h.isFailure_of_passed hpassed
    have hcut : steps.any (·.isCut) = false := by
      have hor := any_isCut_or_isFailure steps
      rw [hfailed, Bool.or_false] at hor
      exact hor
    refine ⟨?_, ?_⟩
    · have hnone : (steps.any fun step => step.stage.terminal?.isNone && step.isFailure) =
          false := by
        rw [List.any_eq_false] at hfailed ⊢
        intro step hstep hboth
        exact hfailed step hstep (Bool.and_eq_true_iff.1 hboth).2
      rw [hbuild, hcut, buildAfter, hnone]
      rfl
    · have hundropped : .dropped .sendEmail ∉ steps.flatMap (·.notes) := by
        intro hdropped
        have hany := Stagehand.exists_dropped_iff.1 ⟨_, hdropped⟩
        rw [hcut] at hany
        cases hany
      rw [honce.once hundropped, hnotes, callsOf_append, callsOf_append, hcalled] at hcalls
      rw [callsOf_append]
      exact not_mem_of_count_eq_one hcalls

end Courses

/-- **The mail that is sent to its end reports what the records tell**, whatever the
collaborators do: aborted if the branch limit passed, otherwise a failure if a stage before the
terminal ones failed, and otherwise success. If the branch passed it reported success, and there
was no other mail. -/
theorem BranchPlan.mail_reports {ω : Type} (plan : BranchPlan) (c : Collaborators ω)
    (policy : SelectorPolicy) (limit : Option Nat) (world : ω) {o : BranchOutcome}
    (hdone : (plan.runWithin c policy limit world).ending = .done o) (hfinal : o.error = none) :
    Reports o (plan.notes c policy limit world) := by
  cases plan.ends c policy limit world with
  | follows h =>
    rw [h.ending] at hdone
    obtain rfl := Ending.done.inj hdone
    rw [h.notes]
    cases h.course with
    | unresolved => cases hfinal
    | noCheckout => cases hfinal
    | noBudget => cases hfinal
    | finalized _ _ _ hcourse => exact hcourse.reports plan
  | stops _ hbroken =>
    rw [hbroken] at hdone
    cases hdone
  | lost _ hending => exact absurd hdone (hending o)

theorem BranchPlan.mail_reports_slowCleanup :
    ∃ o,
      (hourPlan.runWithin (Rehearsal.collaborators slowCleanup) .firstMatch (some 5000) []).ending =
        .done o ∧
      o.error = none ∧ reportOf o.stages = .aborted ∧
      Reports o (hourPlan.notes (Rehearsal.collaborators slowCleanup) .firstMatch (some 5000) []) :=
  ⟨_, rfl, rfl, rfl, BranchPlan.mail_reports hourPlan
    (Rehearsal.collaborators slowCleanup) .firstMatch (some 5000) [] rfl rfl⟩

end Stagehand
