import Mathlib.Data.List.Forall2
import Stagehand.Proofs.Branch.Calls

/-!
# The sweep from any ledger

Whatever a ledger holds and whatever the collaborators do, short of breaking down: a sweep archives
the artifacts, calls just the terminal stages that the ledger lacks, in order and each within its
own allotment, and leaves the ledger complete. Its report is aligned with its calls. A second sweep
has no stage left to call, whatever failed in the first (`SweepTask.sweeps_once`).

**Calls.** The calls are those that an observer notes, and what they came to is read off the note
behind each (`outcomesOf`). Without the observer, the sweep comes to the same end.

**Once.** The ledger is read when the artifacts have been archived, and changes while the
stages are run. Nothing is called twice nevertheless, as the stages to run are those that were
missing then. A later sweep calls none of them, as a stage is marked when its call is over, and
not only if it succeeds.
-/

namespace Stagehand

open Rehearsal (Call CallNote)
open Timed

variable {ω : Type}

/-! ## What calls came to -/

/-- What a call came to, by the note behind it. If it did not return, its limit passed: its own, or
that of log collection if it was given none. -/
def outcomeBy (budget : TimeBudget) (n : CallNote) : Option Note → RunResult Unit
  | some (.returned _ answer _) => answer.map fun _ => ()
  | _ => .error (.timeout n.call.name (n.limit.getD (budget.limit .logCollect)))

/-- The calls in the order in which they were made, each with what it came to. -/
def outcomesOf (budget : TimeBudget) : List Note → List (CallNote × RunResult Unit)
  | [] => []
  | .called n :: rest => (n, outcomeBy budget n rest.head?) :: outcomesOf budget rest
  | _ :: rest => outcomesOf budget rest

theorem outcomeBy_note (budget : TimeBudget) (n : CallNote) (ending : CallEnding) (call : Call)
    (time : Nat) : outcomeBy budget n (some (ending.note call time)) =
      (ending.result n.call.name (n.limit.getD (budget.limit .logCollect))).map fun _ => () := by
  cases ending <;> rfl

/-- The line that reports a call, if it failed. -/
def failureOf? : CallNote × RunResult Unit → Option String
  | (_, .ok ()) => none
  | (n, .error e) => some (n.call.name ++ ": " ++ e.message)

/-- The lines that report calls, one for each that failed. -/
def failuresOf (outcomes : List (CallNote × RunResult Unit)) : List String :=
  outcomes.filterMap failureOf?

theorem failuresOf_cons (n : CallNote) (r : RunResult Unit)
    (outcomes : List (CallNote × RunResult Unit)) :
    failuresOf ((n, r) :: outcomes) = errorsOf n.call.name r ++ failuresOf outcomes := by
  cases r <;> rfl

section Attempts

variable {ctx : BranchContext} {budget : TimeBudget} {target : Target} {build : BuildResult}
  {destination : String} {now : Nat} {stages : List TerminalStage} {attempts : List Attempt}
  {last : Nat}

theorem limit_terminalCall (target : Target) (build : BuildResult) (time : Nat)
    (stage : TerminalStage) : (terminalCall ctx budget target build time stage).limit =
      some (budget.limit stage.allocation) := by
  cases stage <;> rfl

/-- The call of an attempt and what it came to. -/
def Attempt.outcome (a : Attempt) : CallNote × RunResult Unit := (a.call, a.result.map fun _ => ())

theorem name_toStage (stage : TerminalStage) : stage.toStage.name = stage.call.name := by
  cases stage <;> rfl

theorem Attempt.IsAt.name_eq {a : Attempt} {stage : TerminalStage} {deadline : Option Nat}
    (ha : a.IsAt stage.toStage (terminalCall ctx budget target build now stage) deadline) :
    a.stage.name = a.call.call.name := by
  rw [ha.hstage, ha.hcall, call_terminalCall, name_toStage]

theorem outcomesOf_attempt {a : Attempt} {stage : TerminalStage}
    (ha : a.IsAt stage.toStage (terminalCall ctx budget target build now stage) none)
    (rest : List Note) :
    outcomesOf budget (a.notes ++ rest) = a.outcome :: outcomesOf budget rest := by
  have hlimit : a.call.limit = some (budget.limit stage.allocation) := by
    rw [ha.hcall, limit_terminalCall]
  have houtcome : outcomeBy budget a.call (some (a.ending.note a.call.call a.stop)) =
      a.result.map fun _ => () := by
    rw [outcomeBy_note, Attempt.result, ha.name_eq, hlimit]
    rfl
  rw [Attempt.outcome, ← houtcome, Attempt.notes]
  cases a.ending <;> rfl

/-- What is noted of attempts tells each of them. -/
theorem Sweeps.outcomesOf_notes (h : Sweeps ctx budget target build now stages attempts last) :
    outcomesOf budget (attempts.flatMap (·.notes)) = attempts.map (·.outcome) := by
  induction h with
  | nil => rfl
  | cons ha _ ih => rw [List.flatMap_cons, outcomesOf_attempt ha, ih, List.map_cons]

theorem Sweeps.flatMap_errors (h : Sweeps ctx budget target build now stages attempts last) :
    attempts.flatMap (·.errors) = failuresOf (attempts.map (·.outcome)) := by
  induction h with
  | nil => rfl
  | cons ha _ ih =>
    rw [List.flatMap_cons, ih, List.map_cons, Attempt.outcome, failuresOf_cons, Attempt.errors,
      ha.name_eq]

/-- The call of a terminal stage, within the allotment of the stage. -/
structure IsTerminalCall (ctx : BranchContext) (budget : TimeBudget) (target : Target)
    (build : BuildResult) (stage : TerminalStage) (n : CallNote) : Prop where
  given : n = terminalCall ctx budget target build n.time stage
  limit : n.limit = some (budget.limit stage.allocation)

theorem Attempt.IsAt.isTerminalCall {a : Attempt} {stage : TerminalStage} {deadline : Option Nat}
    (ha : a.IsAt stage.toStage (terminalCall ctx budget target build now stage) deadline) :
    IsTerminalCall ctx budget target build stage a.call := by
  have htime : a.call.time = now := by
    rw [ha.hcall]
    cases stage <;> rfl
  exact ⟨by rw [htime, ha.hcall], by rw [ha.hcall, limit_terminalCall]⟩

theorem Sweeps.forall₂_calls (h : Sweeps ctx budget target build now stages attempts last) :
    List.Forall₂ (IsTerminalCall ctx budget target build) stages (attempts.map (·.call)) := by
  induction h with
  | nil => exact .nil
  | cons ha _ ih => exact .cons ha.isTerminalCall ih

/-- The archiving of artifacts and what it came to. -/
def Archiving.outcome (budget : TimeBudget) (a : Archiving) : CallNote × RunResult Unit :=
  (a.call, (a.ending.result "copy_artifacts" (budget.limit .logCollect)).map fun _ => ())

theorem Archives.name_call {a : Archiving} (h : Archives ctx budget target destination now a) :
    a.call.call.name = "copy_artifacts" := by
  rw [h.hcall]
  rfl

/-- Where no return is noted of the archive, the next note is of another call. -/
theorem Archives.outcomesOf_notes {a : Archiving} {start : Nat}
    (h : Archives ctx budget target destination now a)
    (hsweeps : Sweeps ctx budget target build start stages attempts last) :
    outcomesOf budget (a.notes ++ attempts.flatMap (·.notes)) =
      a.outcome budget :: attempts.map (·.outcome) := by
  have hlimit : a.call.limit = none := by rw [h.hcall]
  rw [← hsweeps.outcomesOf_notes, Archiving.notes, Archiving.outcome]
  cases a.ending with
  | returned answer => rfl
  | expired =>
    have hbehind : outcomeBy budget a.call (attempts.flatMap (·.notes)).head? =
        .error (.timeout a.call.call.name (a.call.limit.getD (budget.limit .logCollect))) := by
      cases hsweeps <;> rfl
    show (a.call, outcomeBy budget a.call (attempts.flatMap (·.notes)).head?) :: _ = _
    rw [hbehind, h.name_call, hlimit]
    rfl

end Attempts

/-! ## Sweeps -/

/-- What a sweep is given, the ledger apart. -/
structure SweepTask where
  context : BranchContext
  budget : TimeBudget
  target : Target
  build : BuildResult
  destination : String

namespace SweepTask

variable (t : SweepTask) {c : Collaborators ω}

/-- The sweep. -/
def activity (c : Collaborators ω) : Timed (Progress ω) SweepReport :=
  sweep c t.context t.budget t.target t.build t.destination

/-- The call that archives the artifacts. -/
def archiveCall (time : Nat) : CallNote :=
  { call := .copyArtifacts, time, context := t.context, target := some t.target
    destination := some t.destination }

/-- The sweep ends with a report, and these are its calls; it ends so as well if nobody
watches it. -/
structure EndsWith (c : Collaborators ω) (now : Nat) (p : Progress (Noted ω))
    (outcomes : List (CallNote × RunResult Unit)) (report : SweepReport) (p' : Progress (Noted ω)) :
    Prop where
  watched : ∃ last notes, (t.activity c.noted).runUnder none now p = ⟨.done report, last, p'⟩ ∧
    p'.world.notes = p.world.notes ++ notes ∧ outcomesOf t.budget notes = outcomes
  unwatched : ∃ last,
    (t.activity c).runUnder none now p.unnoted = ⟨.done report, last, p'.unnoted⟩

/-- A sweep does what a ledger lacks, and reports it: first the artifacts are archived, then the
terminal stages are called. -/
structure Completes (now : Nat) (ledger : Ledger) (archived : CallNote × RunResult Unit)
    (swept : List (CallNote × RunResult Unit)) (report : SweepReport)
    (ledger' : Ledger) : Prop where
  archive : archived.1 = t.archiveCall now
  collected : report.artifactsCollected = archived.2.toOption.isSome
  /-- What is missing is called in order, each once and within its own allotment. -/
  calls : List.Forall₂ (IsTerminalCall t.context t.budget t.target t.build) ledger.missing
    (swept.map (·.1))
  reinvoked : report.reinvoked = ledger.missing
  stages : report.records.map (·.stage) = report.reinvoked.map (·.toStage)
  /-- A record says what its call came to. -/
  records : List.Forall₂ (fun o r => ∃ duration, r = StageRecord.ofResult r.stage duration o.2)
    swept report.records
  errors : report.errors = failuresOf (archived :: swept)
  marked : ledger' = ledger.missing.foldl Ledger.mark ledger
  complete : ∀ stage, ledger'.isComplete stage = true

/-- What a sweep did about a ledger, by its history. -/
theorem completes_of_sweeps {now last : Nat} {ledger : Ledger} {swept : Swept}
    (harchives : Archives t.context t.budget t.target t.destination now swept.archiving)
    (hsweeps : Sweeps t.context t.budget t.target t.build swept.archiving.stop ledger.missing
      swept.attempts last) :
    t.Completes now ledger (swept.archiving.outcome t.budget) (swept.attempts.map (·.outcome))
      (swept.report t.budget) (swept.marks.foldl Ledger.mark ledger) where
  archive := harchives.hcall
  collected := by
    rw [Swept.report, Archiving.succeeded, Archiving.outcome]
    rcases swept.archiving.ending with (_ | _) | _ <;> rfl
  calls := by
    rw [List.map_map]
    exact hsweeps.forall₂_calls
  reinvoked := hsweeps.marks
  stages := by
    show swept.records.map (·.stage) = _
    rw [swept.stage_records, Swept.report, Swept.marks, hsweeps.marks]
    exact hsweeps.map_stage
  records := by
    rw [Swept.report, Swept.records, List.forall₂_map_left_iff, List.forall₂_map_right_iff,
      List.forall₂_same]
    intro a _
    refine ⟨a.stop - a.call.time, ?_⟩
    rw [Attempt.outcome, StageRecord.ofResult_map, Attempt.record, StageRecord.stage_ofResult]
  errors := by
    rw [Archiving.outcome, failuresOf_cons, harchives.name_call, ← hsweeps.flatMap_errors]
    rfl
  marked := by rw [Swept.marks, hsweeps.marks]
  complete := by
    rw [Swept.marks, hsweeps.marks]
    exact Ledger.isComplete_foldl_mark_missing ledger

/-- A sweep comes to an end, and completes the ledger that it started from. -/
theorem exists_completes (hc : c.Unbreaking) (now : Nat) (p : Progress (Noted ω)) :
    ∃ archived swept report p', t.EndsWith c now p (archived :: swept) report p' ∧
      t.Completes now p.ledger archived swept report p'.ledger := by
  have hreaches : (t.activity c.noted).Reaches none now p _ _ := reaches_sweep hc
  obtain ⟨_, last, _, hrun, swept, world, harchives, hsweeps, rfl, rfl⟩ := hreaches.returns
  refine ⟨swept.archiving.outcome t.budget, swept.attempts.map (·.outcome), swept.report t.budget,
    p.grown (swept.events t.context.axis) swept.notes swept.marks world, ⟨?_, ?_⟩,
    t.completes_of_sweeps harchives hsweeps⟩
  · exact ⟨last, swept.notes, hrun, rfl, harchives.outcomesOf_notes hsweeps⟩
  · have hnow : meets now none = true := rfl
    have herase :=
      runUnder_sweep_erase c t.context t.budget t.target t.build t.destination hnow p
    refine ⟨last, ?_⟩
    rw [activity, ← herase, ← activity, hrun]
    rfl

variable {t}

/-- On a complete ledger nothing is left to do but to archive. -/
theorem Completes.of_complete {now : Nat} {ledger ledger' : Ledger}
    {archived : CallNote × RunResult Unit} {swept : List (CallNote × RunResult Unit)}
    {report : SweepReport} (h : t.Completes now ledger archived swept report ledger')
    (hcomplete : ∀ stage, ledger.isComplete stage = true) :
    swept = [] ∧ report.reinvoked = [] ∧ report.records = [] ∧ ledger' = ledger := by
  have hmissing : ledger.missing = [] :=
    List.isEmpty_iff.1 (Ledger.allComplete_of_isComplete hcomplete)
  have hcalls := h.calls
  have hstages := h.stages
  have hmarked := h.marked
  rw [h.reinvoked] at hstages
  rw [hmissing] at hcalls hstages hmarked
  exact ⟨List.map_eq_nil_iff.1 (List.forall₂_nil_left_iff.1 hcalls), h.reinvoked.trans hmissing,
    List.map_eq_nil_iff.1 hstages, hmarked⟩

/-- **The sweep from any ledger.** It comes to an end, calls the archive and then just what the
ledger lacks, reports what these calls came to, and leaves the ledger complete. Any later sweep that
finds the ledger so archives again, calls no stage and changes nothing in the ledger. -/
theorem sweeps_once (hc : c.Unbreaking) (t : SweepTask) (now : Nat) (p : Progress (Noted ω)) :
    ∃ archived swept report p', t.EndsWith c now p (archived :: swept) report p' ∧
      t.Completes now p.ledger archived swept report p'.ledger ∧
      ∀ (c' : Collaborators ω) (t' : SweepTask) (later : Nat) (q : Progress (Noted ω)),
        c'.Unbreaking → q.ledger = p'.ledger →
        ∃ again report' q', t'.EndsWith c' later q [again] report' q' ∧
          again.1 = t'.archiveCall later ∧ report'.reinvoked = [] ∧ report'.records = [] ∧
          report'.errors = failuresOf [again] ∧ q'.ledger = q.ledger := by
  obtain ⟨archived, swept, report, p', hends, hcompletes⟩ := t.exists_completes hc now p
  refine ⟨archived, swept, report, p', hends, hcompletes, fun c' t' later q hc' hledger => ?_⟩
  obtain ⟨again, swept', report', q', hends', hcompletes'⟩ := t'.exists_completes hc' later q
  have hcomplete : ∀ stage, q.ledger.isComplete stage = true := by
    rw [hledger]
    exact hcompletes.complete
  obtain ⟨rfl, hreinvoked, hrecords, hkept⟩ := hcompletes'.of_complete hcomplete
  exact ⟨again, report', q', hends', hcompletes'.archive, hreinvoked, hrecords,
    hcompletes'.errors, hkept⟩

/-- The sweep of a branch whose test failed. -/
def afterFailure : SweepTask where
  context :=
    { axis := "i4i.large", testId := "t-1", workdir := "/work", env := NameMap.empty
      config :=
        { backend := .aws, region := "eu-west-1", availabilityZone := "a"
          artifactSource := .version "6.1.0", disposal := ⟨.destroy, .destroy, .destroy⟩
          provisionType := .spot, testName := defaultTestName, testConfig := none
          durationMinutes := 60, emailRecipients := [], overlay := NameMap.empty } }
  budget := ⟨120, 20, 70, 30, 10⟩
  target := .here
  build := .failure
  destination := "/work/artifacts"

/-- The artifacts cannot be copied, and the cleanup does not end in time. -/
def hungCleanup : List Rehearsal.CallRule :=
  [⟨.copyArtifacts, none, { error := some (.command "rsync" (some 12) "refused") }⟩,
    ⟨.cleanResources, none, { delay := 1000000 }⟩]

theorem sweeps_once_hungCleanup :
    (Rehearsal.collaborators hungCleanup).Unbreaking ∧
      ∃ archived swept report p',
        afterFailure.EndsWith (Rehearsal.collaborators hungCleanup) 0 { world := ⟨[], []⟩ }
          (archived :: swept) report p' ∧
        afterFailure.Completes 0 Ledger.empty archived swept report p'.ledger ∧
        report.errors = ["copy_artifacts: command \x60rsync\x60 failed (exit code 12)",
          "clean_resources: clean_resources exceeded its budget of 30 minutes"] ∧
        ∃ again report' q',
          afterFailure.EndsWith (Rehearsal.collaborators hungCleanup) 0 p' [again] report' q' ∧
            report'.reinvoked = [] ∧ q'.ledger = p'.ledger := by
  have hc : (Rehearsal.collaborators hungCleanup).Unbreaking :=
    (Rehearsal.dependable_collaborators (by decide)).unbreaking
  obtain ⟨archived, swept, report, p', hends, hcompletes, hagain⟩ :=
    sweeps_once hc afterFailure 0 { world := ⟨[], []⟩ }
  obtain ⟨again, report', q', hends', -, hreinvoked, -, -, hledger⟩ :=
    hagain (Rehearsal.collaborators hungCleanup) afterFailure 0 p' hc rfl
  have herrors : ∃ r, ((afterFailure.activity (Rehearsal.collaborators hungCleanup)).runUnder none 0
      { world := [] }).ending = .done r ∧
        r.errors = ["copy_artifacts: command \x60rsync\x60 failed (exit code 12)",
          "clean_resources: clean_resources exceeded its budget of 30 minutes"] :=
            ⟨_, rfl, by decide⟩
  obtain ⟨r, hdone, herrors⟩ := herrors
  obtain ⟨last, hrun⟩ := hends.unwatched
  obtain rfl : report = r := Ending.done.inj ((congrArg Ended.ending hrun).symm.trans hdone)
  exact ⟨hc, archived, swept, report, p', hends, hcompletes, herrors, again, report', q', hends',
    hreinvoked, hledger⟩

end SweepTask

end Stagehand
