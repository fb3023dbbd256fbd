import Stagehand.Proofs.Branch.Foretelling
import Stagehand.Proofs.Branch.Limits

/-!
# No call stalls its branch

Any call after checkout may hang. It is given up once its allotment is used up, in the main stages
and in the sweep alike; the main stages are given up at the branch limit if that comes first. So a
branch whose checkout comes to an end does so too, and it is known by when.

The time of a branch is bounded for the program itself (`endsBy_runBranch`), where a breakdown
counts as an end. What becomes of single calls is read off the course: nothing but the limit of a
call ends it early, and its limit ends it exactly if it needs more (`StageStep.IsCutByNeed`).

Main result: `BranchPlan.never_stalls`.
-/

namespace Stagehand

open Rehearsal (Call CallNote)
open Timed

variable {σ ω α β : Type}

/-! ## Limits of calls -/

/-- What is allotted to a call. Copying artifacts takes from what is allotted to the logs. -/
def Rehearsal.Call.allocation? : Call → Option Allocation
  | checkout => none
  | createRunner => some .runnerProvision
  | runTest => some .testRun
  | collectLogs | copyArtifacts => some .logCollect
  | cleanResources => some .resourceCleanup
  | sendEmail => some .sendEmail

/-- The seconds for which a call may be in flight. -/
def allowance (budget : TimeBudget) (call : Call) : Option Nat := call.allocation?.map budget.limit

def handedLimit (budget : TimeBudget) (call : Call) : Option Nat :=
  if call = .copyArtifacts then none else allowance budget call

/-- Every call is handed its limit. -/
def HandsLimits (budget : TimeBudget) (notes : List Note) : Prop :=
  ∀ n, .called n ∈ notes → n.limit = handedLimit budget n.call

section Calls

variable {ctx : BranchContext} {budget : TimeBudget} {steps : List StageStep} {now : Nat}
  {n : CallNote}

/-- A call that is handed what it is allotted. -/
structure HandedAll (budget : TimeBudget) (n : CallNote) : Prop where
  limit : n.limit = allowance budget n.call
  call : n.call ≠ .copyArtifacts

theorem HandedAll.limit_eq (h : HandedAll budget n) : n.limit = handedLimit budget n.call := by
  rw [handedLimit, if_neg h.call, h.limit]

theorem handedAll_terminalCall (target : Target) (build : BuildResult) (time : Nat)
    (stage : TerminalStage) : HandedAll budget
    (terminalCall ctx budget target build time stage) := by
  cases stage <;> exact ⟨rfl, by rintro ⟨⟩⟩

theorem handedAll_of_callAfter {stage : Stage} (h : callAfter ctx budget steps now stage = some n) :
    HandedAll budget n := by
  cases stage with
  | checkout => cases h; exact ⟨rfl, by rintro ⟨⟩⟩
  | computeBudget => cases h
  | createRunner | runTest =>
    simp only [callAfter] at h
    split at h <;> cases h
    exact ⟨rfl, by rintro ⟨⟩⟩
  | collectLogs => cases h; exact ⟨rfl, by rintro ⟨⟩⟩
  | cleanResources => cases h; exact handedAll_terminalCall _ _ _ .cleanResources
  | sendEmail => cases h; exact handedAll_terminalCall _ _ _ .sendEmail

end Calls

/-! ## Calls in flight -/

def Note.time? : Note → Option Nat
  | called n => some n.time
  | returned _ _ time | expired _ time => some time
  | dropped _ => none

/-- When the next thing is noted, or all is over. -/
def nextTime (notes : List Note) (last : Nat) : Nat := (notes.findSome? (·.time?)).getD last

/-- No call is in flight for longer than it may be: by then something else is noted, or
all is over. -/
def KeepsAllowances (budget : TimeBudget) (notes : List Note) (last : Nat) : Prop :=
  ∀ before n after, notes = before ++ .called n :: after →
    ∀ limit, allowance budget n.call = some limit → nextTime after last ≤ n.time + limit * 1000

/-- Notes that go on from a time to another one: every call is handed its limit, and none is in
flight for too long. -/
structure Spans (budget : TimeBudget) (now : Nat) (notes : List Note) (last : Nat) : Prop where
  start : nextTime notes last = now
  hands : HandsLimits budget notes
  keeps : KeepsAllowances budget notes last

section Spans

variable {ctx : BranchContext} {budget : TimeBudget} {deadline : Option Nat}
  {steps taken : List StageStep}
  {now mid last : Nat} {notes later : List Note}

theorem nextTime_append (notes later : List Note) (last : Nat) :
    nextTime (notes ++ later) last = nextTime notes (nextTime later last) := by
  rw [nextTime, List.findSome?_append, nextTime, nextTime]
  cases notes.findSome? (·.time?) <;> rfl

theorem Spans.nil : Spans budget now [] now :=
  ⟨rfl, by rintro n ⟨⟩, fun before _ _ h => by simp at h⟩

theorem Spans.append (h : Spans budget now notes mid) (h' : Spans budget mid later last) :
    Spans budget now (notes ++ later) last where
  start := by rw [nextTime_append, h'.start, h.start]
  hands n hn := (List.mem_append.1 hn).elim (h.hands n) (h'.hands n)
  keeps before n after heq limit hlimit := by
    obtain ⟨between, hnotes, rfl⟩ | ⟨between, rfl, hlater⟩ := append_eq_append_cons heq
    · rw [nextTime_append, h'.start]
      exact h.keeps before n between hnotes limit hlimit
    · exact h'.keeps between n after hlater limit hlimit

theorem Spans.call {n : CallNote} {tail : List Note} (htail : callsOf tail = [])
    (hend : nextTime tail last = last) (hlimit : n.limit = handedLimit budget n.call)
    (hkeeps : ∀ limit, allowance budget n.call = some limit → last ≤ n.time + limit * 1000) :
    Spans budget n.time (.called n :: tail) last where
  start := rfl
  hands m hm := by
    obtain heq | hm := List.mem_cons.1 hm
    · cases heq
      exact hlimit
    · obtain ⟨between, later, rfl⟩ := List.append_of_mem hm
      exact absurd rfl (not_called_of_callsOf htail)
  keeps before m after heq limit hallowed := by
    obtain ⟨rfl, hcons⟩ | ⟨between, rfl, rfl⟩ := List.cons_eq_append_iff.1 heq
    · cases hcons
      rw [hend]
      exact hkeeps limit hallowed
    · exact absurd rfl (not_called_of_callsOf htail)

theorem Attempt.IsAt.spans {a : Attempt} {stage : Stage} {call : CallNote}
    (ha : a.IsAt stage call deadline) (hhanded : HandedAll budget call) :
    Spans budget call.time a.notes a.stop := by
  obtain ⟨-, rfl, ⟨-, htimely⟩, -⟩ := ha
  have hnotes : callsOf [a.ending.note a.call.call a.stop] = [] := by
    cases a.ending <;> rfl
  have hend : nextTime [a.ending.note a.call.call a.stop] a.stop = a.stop := by
    cases a.ending <;> rfl
  exact .call hnotes hend hhanded.limit_eq fun limit h => (htimely limit (hhanded.limit.trans h)).1

theorem Takes.spans {stage : Stage} {step : StageStep} {time : Nat}
    (h : Takes ctx budget deadline steps now stage step time) :
    Spans budget now step.notes time := by
  cases h with
  | attempted hcall ha =>
    have hspans := ha.spans (handedAll_of_callAfter hcall)
    rwa [time_of_callAfter hcall] at hspans
  | passedOver => exact .nil
  | refused => exact .nil

theorem Path.spans {stages : List Stage}
    (h : Path ctx budget deadline steps now stages taken last) :
    Spans budget now (taken.flatMap (·.notes)) last := by
  induction h with
  | nil => exact .nil
  | cons htakes _ ih =>
    rw [List.flatMap_cons]
    exact htakes.spans.append ih

theorem Cuts.spans {stage : Stage} {call : CallNote} {stop : Nat}
    (h : Cuts ctx budget deadline steps now stage call stop) :
    Spans budget now (StageStep.cut stage call stop).notes stop := by
  have hhanded := handedAll_of_callAfter h.hcall
  have hspans : Spans budget call.time (StageStep.cut stage call stop).notes stop :=
    .call rfl rfl hhanded.limit_eq fun limit hlimit =>
      Nat.le_of_lt (h.hdropped.hearly limit (hhanded.limit.trans hlimit))
  rwa [time_of_callAfter h.hcall] at hspans

theorem MainCourse.spans {limit : Nat} {checkedOut : Bool}
    (h : MainCourse ctx budget limit steps now checkedOut taken last) :
    Spans budget now (taken.flatMap (·.notes)) last := by
  cases h with
  | complete hpath => exact hpath.spans
  | cut _ hpath hcuts =>
    rw [List.flatMap_append, List.flatMap_singleton]
    exact hpath.spans.append hcuts.spans
  | noWorkspace => exact .nil

variable {target : Target} {build : BuildResult}

theorem Archives.spans {destination : String} {a : Archiving}
    (h : Archives ctx budget target destination now a) : Spans budget now a.notes a.stop := by
  have hcall : a.call.call = .copyArtifacts := by rw [h.hcall]
  have htime : a.call.time = now := by rw [h.hcall]
  have hnotes : callsOf (a.ending.returnNotes a.call.call a.stop) = [] := by
    cases a.ending <;> rfl
  have hend : nextTime (a.ending.returnNotes a.call.call a.stop) a.stop = a.stop := by
    cases a.ending <;> rfl
  have hlimit : a.call.limit = handedLimit budget a.call.call := by rw [h.hcall]; rfl
  rw [← htime]
  refine .call hnotes hend hlimit fun limit hlimit => ?_
  rw [hcall] at hlimit
  cases hlimit
  rw [htime]
  exact h.hstop

theorem Sweeps.spans {stages : List TerminalStage} {attempts : List Attempt}
    (h : Sweeps ctx budget target build now stages attempts last) :
    Spans budget now (attempts.flatMap (·.notes)) last := by
  induction h with
  | nil => exact .nil
  | @cons now stage _ _ _ _ ha _ ih =>
    have htime : (terminalCall ctx budget target build now stage).time = now := by
      cases stage <;> rfl
    have hspans := ha.spans (handedAll_terminalCall target build now stage)
    rw [htime] at hspans
    rw [List.flatMap_cons]
    exact hspans.append ih

theorem spans_checkout (answer : RunResult Unit) (stop : Nat) :
    Spans budget 0 (checkoutAttempt ctx answer stop).notes stop := by
  have hcheckout : Spans budget (checkoutCall ctx).time
      (checkoutAttempt ctx answer stop).notes stop :=
    .call rfl rfl rfl (by rintro limit ⟨⟩)
  exact hcheckout

theorem FinalCourse.spans {limit : Nat} {checkedOut : Bool} {answer : RunResult Unit}
    {swept : Swept}
    (h : FinalCourse ctx budget limit
      (preparation ctx answer now budget) now checkedOut steps swept last) :
    Spans budget 0 (steps.flatMap (·.notes) ++ swept.notes) last := by
  cases h with
  | intro hmain harchives hsweeps =>
    rw [List.flatMap_append]
    exact ((spans_checkout answer now).append hmain.spans).append
      (harchives.spans.append hsweeps.spans)

end Spans

/-! ## Cut by a limit -/

namespace StageStep

/-- The call that was made at a step. -/
def called? : StageStep → Option CallNote
  | attempted a => some a.call
  | cut _ call _ => some call
  | computed _ | passedOver _ _ | refused _ => none

/-- The limit of its own call ended the step. -/
def IsExpired : StageStep → Prop
  | attempted a => a.ending = .expired
  | _ => False

/-- The limit of its own call ends a step exactly if that needs more and the deadline does not come
first, and the step is recorded as timed out then. -/
structure IsCutByNeed (deadline need : Option Nat) (step : StageStep) (n : CallNote) (limit : Nat) :
    Prop where
  expired : step.IsExpired ↔ Exceeds need (limit * 1000) ∧ meets (n.time + limit * 1000) deadline
  record : step.IsExpired → step.record =
    .failed step.stage .timedOut (limit * 1000) (RunError.timeout step.stage.name limit).message

/-- The call of a step is over by its limit, if the deadline does not drop it. -/
inductive Heeds (deadline : Option Nat) : StageStep → Prop
  | attempted {a : Attempt} (timely : a.Timely) (meets : meets a.stop deadline) :
      Heeds deadline (.attempted a)
  | cut {stage : Stage} {call : CallNote} {stop : Nat} (dropped : IsDropped call deadline stop) :
      Heeds deadline (.cut stage call stop)
  | uncalled {step : StageStep} (none : step.called? = none) : Heeds deadline step

section Heeds

variable {deadline need : Option Nat} {step : StageStep} {n : CallNote} {limit : Nat}

/-- A call that is over by its limit and fares as was foretold is cut by what it needs. -/
theorem Heeds.isExpired_iff (h : step.Heeds deadline) (hcalled : step.called? = some n)
    (hlimit : n.limit = some limit) (later : List Note)
    (hfares : ∀ tail, step.notes = .called n :: tail → Fares n need (tail ++ later)) :
    step.IsExpired ↔ Exceeds need (limit * 1000) ∧ meets (n.time + limit * 1000) deadline := by
  cases h with
  | @attempted a timely hmeets =>
    obtain rfl : a.call = n := Option.some.inj hcalled
    obtain ⟨hstarted, htimely⟩ := timely
    obtain ⟨hstop, hexpired⟩ := htimely limit hlimit
    have hfare : Fares a.call need (a.ending.note a.call.call a.stop :: later) := hfares _ rfl
    show a.ending = .expired ↔ _
    cases hending : a.ending with
    | expired =>
      rw [hending] at hfare
      rw [← hexpired hending]
      exact ⟨fun _ => ⟨hfare.expired a.stop later limit rfl hlimit, hmeets⟩, fun _ => rfl⟩
    | returned answer =>
      -- It needed what it took, and that was no more than its limit.
      rw [hending] at hfare
      have hneed := hfare.returned answer a.stop later rfl
      rw [hneed, exceeds_some]
      refine ⟨?_, fun ⟨hexceeds, _⟩ => ?_⟩
      · rintro ⟨⟩
      · omega
  | @cut stage call stop dropped =>
    obtain rfl : call = n := Option.some.inj hcalled
    refine ⟨False.elim, fun ⟨_, hmeets⟩ => ?_⟩
    have hearly := dropped.hearly limit hlimit
    rw [dropped.hdeadline] at hmeets
    have hlate : call.time + limit * 1000 ≤ stop := of_decide_eq_true hmeets
    exact absurd hlate (Nat.not_le_of_lt hearly)
  | uncalled none =>
    rw [hcalled] at none
    cases none

theorem Heeds.record_eq (h : step.Heeds deadline) (hcalled : step.called? = some n)
    (hlimit : n.limit = some limit) (hexpired : step.IsExpired) :
    step.record =
      .failed step.stage .timedOut (limit * 1000)
        (RunError.timeout step.stage.name limit).message := by
  cases h with
  | @attempted a timely =>
    obtain rfl : a.call = n := Option.some.inj hcalled
    have hexpired : a.ending = .expired := hexpired
    have hstop := (timely.2 limit hlimit).2 hexpired
    have htime : a.stop - a.call.time = limit * 1000 := by omega
    rw [stage_attempted]
    show Attempt.record a = _
    rw [Attempt.record, Attempt.result, hexpired, hlimit, htime]
    rfl
  | cut => exact hexpired.elim
  | uncalled none =>
    rw [hcalled] at none
    cases none

end Heeds

theorem notes_of_called {step : StageStep} {n : CallNote} (h : step.called? = some n) :
    ∃ tail, step.notes = .called n :: tail := by
  cases step with
  | attempted | cut =>
    cases h
    exact ⟨_, rfl⟩
  | computed | passedOver | refused => cases h

end StageStep

/-- Of some steps, made after some notes, the limit of a call ends exactly those that need more. -/
def CutsByNeed (deadline : Option Nat) (needs : List (Option Nat)) (before : List Note)
    (steps : List StageStep) : Prop :=
  ∀ done step rest, steps = done ++ step :: rest →
    ∀ n limit, step.called? = some n → n.limit = some limit →
      ∃ need, needs[(callsOf (before ++ done.flatMap (·.notes))).length]? = some need ∧
        step.IsCutByNeed deadline need n limit

theorem CutsByNeed.of_foretells {deadline : Option Nat} {needs : List (Option Nat)}
    {before : List Note} {steps : List StageStep} (later : List Note)
    (h : Foretells (before ++ (steps.flatMap (·.notes) ++ later)) needs)
    (hheeds : ∀ step ∈ steps, step.Heeds deadline) : CutsByNeed deadline needs before steps := by
  rintro done step rest rfl n limit hcalled hlimit
  obtain ⟨tail, htail⟩ := StageStep.notes_of_called hcalled
  obtain ⟨need, hneed, hfares⟩ := h.fares (before ++ done.flatMap (·.notes)) n
    (tail ++ (rest.flatMap (·.notes) ++ later)) (by simp [htail])
  have hstep : ∀ tail', step.notes = .called n :: tail' →
      Fares n need (tail' ++ (rest.flatMap (·.notes) ++ later)) := by
    intro tail' heq
    cases htail.symm.trans heq
    exact hfares
  have hheed : step.Heeds deadline := hheeds step (by simp)
  exact ⟨need, hneed, hheed.isExpired_iff hcalled hlimit _ hstep, hheed.record_eq hcalled hlimit⟩

section Courses

variable {ctx : BranchContext} {budget : TimeBudget} {deadline : Option Nat}
  {steps taken : List StageStep}
  {now last : Nat}

theorem Takes.heeds {stage : Stage} {step : StageStep} {time : Nat}
    (h : Takes ctx budget deadline steps now stage step time) : step.Heeds deadline := by
  cases h with
  | attempted _ ha => exact .attempted ha.htimely ha.hmeets
  | passedOver => exact .uncalled rfl
  | refused => exact .uncalled rfl

theorem Path.heeds {stages : List Stage}
    (h : Path ctx budget deadline steps now stages taken last) :
    ∀ step ∈ taken, step.Heeds deadline := by
  induction h with
  | nil => exact List.forall_mem_nil _
  | cons htakes _ ih => exact List.forall_mem_cons.2 ⟨htakes.heeds, ih⟩

theorem MainCourse.heeds {limit : Nat} {checkedOut : Bool}
    (h : MainCourse ctx budget limit steps now checkedOut taken last) :
    ∀ step ∈ taken, step.Heeds (some (now + limit)) := by
  cases h with
  | complete hpath => exact hpath.heeds
  | cut _ hpath hcuts =>
    exact List.forall_mem_append.2 ⟨hpath.heeds, List.forall_mem_singleton.2 (.cut hcuts.hdropped)⟩
  | noWorkspace =>
    simp only [List.mem_map]
    rintro step ⟨stage, -, rfl⟩
    exact .uncalled rfl

theorem heeds_preparation {limit : Nat} (answer : RunResult Unit) (stop : Nat) :
    ∀ step ∈ preparation ctx answer stop budget, step.Heeds (some (stop + limit)) := by
  simp only [preparation, List.mem_cons, List.not_mem_nil, or_false]
  rintro step (rfl | rfl)
  · exact .attempted ⟨Nat.zero_le _, by rintro limit ⟨⟩⟩ (decide_eq_true (Nat.le_add_right _ _))
  · exact .uncalled rfl

theorem Sweeps.heeds {target : Target} {build : BuildResult} {stages : List TerminalStage}
    {attempts : List Attempt} (h : Sweeps ctx budget target build now stages attempts last) :
    ∀ a ∈ attempts, (StageStep.attempted a).Heeds none := by
  induction h with
  | nil => exact List.forall_mem_nil _
  | cons ha _ ih => exact List.forall_mem_cons.2 ⟨.attempted ha.htimely ha.hmeets, ih⟩

/-- **The recorded stages are cut by their limits exactly if they need more.** The main stages have
the branch limit beside their own, and the sweep has not. -/
theorem FinalCourse.cutsByNeed {limit : Nat} {checkedOut : Bool} {answer : RunResult Unit}
    {swept : Swept} {needs : List (Option Nat)}
    (h : FinalCourse ctx budget limit
      (preparation ctx answer now budget) now checkedOut steps swept last)
    (hforetells : Foretells (steps.flatMap (·.notes) ++ swept.notes) needs) :
    CutsByNeed (some (now + limit)) needs [] steps ∧
      CutsByNeed none needs (steps.flatMap (·.notes) ++ swept.archiving.notes)
        (swept.attempts.map .attempted) := by
  cases h with
  | intro hmain harchives hsweeps =>
    refine ⟨.of_foretells _ hforetells ?_, .of_foretells [] ?_ ?_⟩
    · exact List.forall_mem_append.2 ⟨heeds_preparation answer now, hmain.heeds⟩
    · rw [List.flatMap_map, List.append_nil, List.append_assoc]
      exact hforetells
    · simp only [List.mem_map]
      rintro step ⟨a, ha, rfl⟩
      exact hsweeps.heeds a ha

end Courses

/-! ## The time of a branch -/

section Program

open BranchState

variable (c : Collaborators ω) (ctx : BranchContext) (budget : TimeBudget)

theorem atMost_within_of_atMost {x : Timed σ α} {m : Nat} (limit : Nat) (h : x.AtMost m) :
    (within limit x).AtMost (min limit m) := by
  intro deadline now s hd
  obtain ⟨htime, hcut⟩ := atMost_within limit x deadline now s hd
  have hnow : meets now (some (nearer (now + limit) deadline)) :=
    meets_nearer.2 ⟨Nat.le_add_right _ _, hd⟩
  have hbody := (h _ now s hnow).1
  have hsame : ((within limit x).runUnder deadline now s).time =
      (x.runUnder (some (nearer (now + limit) deadline)) now s).time := by
    rw [runUnder_within _ _ _ _ _ hd]
    rcases x.runUnder (some (nearer (now + limit) deadline)) now s with ⟨a | _ | _, time, t⟩
    · rfl
    · simp only [limited]
      split <;> rfl
    · rfl
  refine ⟨?_, hcut⟩
  rw [hsame] at htime ⊢
  omega

/-- Copying artifacts takes no longer than what is allotted to the logs. -/
theorem atMost_archive (target : Target) (destination : String) :
    (archive c ctx budget target destination).AtMost (budget.limit .logCollect * 1000) := by
  refine atMost_bind_instant (atMost_onPart Progress.isPart_world (atMost_bounded _ _ _))
    fun result => ?_
  exact atMost_bind_of_instant (atMost_modify _) fun _ => atMost_pure _

theorem atMost_sweepStages (target : Target) (build : BuildResult) (stages : List TerminalStage)
    (report : SweepReport) :
    (sweepStages c ctx budget target build stages report).AtMost
      ((stages.map fun stage => budget.limit stage.allocation).sum * 1000) := by
  induction stages generalizing report with
  | nil => exact (atMost_pure _).mono (Nat.zero_le _)
  | cons stage rest ih =>
    have hfirst : (sweepStage c ctx budget target build report stage).AtMost
        (budget.limit stage.allocation * 1000) := by
      refine atMost_bind_of_instant atMost_now fun started => ?_
      refine atMost_bind_instant (atMost_runTerminal c ctx budget target build stage)
        fun result => ?_
      refine atMost_bind_of_instant atMost_now fun ended => ?_
      exact atMost_bind_of_instant (atMost_modify _) fun _ => atMost_pure _
    refine (atMost_bind hfirst ih).mono (Nat.le_of_eq ?_)
    rw [List.map_cons, List.sum_cons, Nat.add_mul]

/-- The milliseconds that a sweep may take: artifacts are copied, and no terminal stage
is missing twice. -/
def sweepAllowance (budget : TimeBudget) : Nat :=
  (budget.limit .logCollect + budget.limit .resourceCleanup + budget.limit .sendEmail) * 1000

theorem sum_missing_le (l : Ledger) :
    (l.missing.map fun stage => budget.limit stage.allocation).sum ≤
      budget.limit .resourceCleanup + budget.limit .sendEmail := by
  obtain ⟨cleaned, mailed⟩ := l
  cases cleaned <;> cases mailed <;>
    simp [Ledger.missing, TerminalStage.order, Ledger.isComplete, TerminalStage.allocation]

theorem atMost_finish (wasCut : Bool) :
    (finish c ctx budget wasCut).AtMost (sweepAllowance budget) := by
  refine atMost_get_bind fun s => atMost_bind_instant (atMost_onProgress ?_) fun report => ?_
  · refine (atMost_bind (atMost_archive c ctx budget _ _) fun report => atMost_get_bind fun p =>
      (atMost_sweepStages c ctx budget _ _ _ _).mono
        (Nat.mul_le_mul_right 1000 (sum_missing_le budget p.ledger))).mono ?_
    rw [sweepAllowance]
    omega
  · exact atMost_bind_of_instant (atMost_modify _) fun _ => atMost_pure _

/-- The milliseconds that the main stages may take under the branch limit. -/
def mainAllowance (budget : TimeBudget) (limit : Nat) : Nat :=
  min limit ((Allocation.all.map budget.limit).sum * 1000)

theorem atMost_mainStages (limit : Nat) (checkedOut : Bool) :
    (mainStages c ctx budget limit checkedOut).AtMost (mainAllowance budget limit) := by
  cases checkedOut with
  | false =>
    exact (atMost_bind_of_instant (atMost_modify _) fun _ => atMost_pure _).mono (Nat.zero_le _)
  | true =>
    have hmain := atMost_within_of_atMost limit (atMost_provisionedStages c ctx budget)
    refine atMost_bind_instant hmain fun ended => ?_
    cases ended with
    | some => exact atMost_pure _
    | none =>
      refine atMost_bind_instant (atMost_get_bind fun s => ?_) fun _ => atMost_pure _
      cases s.inFlight with
      | none => exact atMost_pure _
      | some stage =>
        refine atMost_bind_of_instant atMost_now fun now => ?_
        exact atMost_bind_of_instant (atMost_modify _) fun _ => atMost_record _ _

theorem atMost_attempt_pure_bind {n : Nat} (axis : String) (stage : Stage) (r : RunResult α)
    {f : RunResult α → Timed (BranchState ω) β} (h : (f r).AtMost n) :
    (attempt axis stage (pure r) >>= f).AtMost n := by
  intro deadline now s hd
  exact h deadline now _ hd

variable {c ctx budget}

theorem atMost_budgeted {limit : Option Nat}
    (hbudget : TimeBudget.compute ctx.config.durationMinutes ctx.config.backend ctx.config.region =
      .ok budget)
    (checkedOut : Bool) :
    (runStages.budgeted c limit ctx checkedOut).AtMost
      (mainAllowance budget (limit.getD (budget.branchLimit * 1000)) + sweepAllowance budget) := by
  rw [runStages.budgeted, hbudget]
  refine atMost_attempt_pure_bind _ _ _ ?_
  refine atMost_bind (atMost_mainStages c ctx budget _ _) fun wasCut => ?_
  exact atMost_bind_instant (atMost_finish c ctx budget _) fun _ => atMost_pure _

/-- From a time and a world on, the activity comes to an end by a time, be it a breakdown. -/
def EndsBy (x : Timed (BranchState ω) α) (now : Nat) (world : ω) (time : Nat) : Prop :=
  ∀ s, s.progress.world = world →
    (x.runUnder none now s).ending ≠ .cut ∧ (x.runUnder none now s).time ≤ time

variable {now time : Nat} {world : ω}

theorem endsBy_bind {x : Timed (BranchState ω) β} {f : β → Timed (BranchState ω) α} {n : Nat}
    (hx : EndsBy x now world time) (hf : ∀ b, (f b).AtMost n) :
    EndsBy (x >>= f) now world (time + n) := by
  intro s hs
  obtain ⟨hcut, htime⟩ := hx s hs
  rw [runUnder_bind]
  generalize x.runUnder none now s = e at hcut htime ⊢
  obtain ⟨b | _ | _, stop, t⟩ := e
  · obtain ⟨hlater, hnone⟩ := hf b none stop t rfl
    exact ⟨fun h => absurd rfl (hnone h), Nat.le_trans hlater (Nat.add_le_add_right htime n)⟩
  · exact absurd rfl hcut
  · exact ⟨by rintro ⟨⟩, Nat.le_trans htime (Nat.le_add_right _ _)⟩

/-! Looking at the time and telling take none, and leave the world as it is. -/

theorem endsBy_now_bind {f : Nat → Timed (BranchState ω) α} (h : EndsBy (f now) now world time) :
    EndsBy (Timed.now >>= f) now world time := h

theorem endsBy_modify_bind {f : BranchState ω → BranchState ω} {k : Unit → Timed (BranchState ω) α}
    (hf : ∀ s, (f s).progress.world = s.progress.world) (h : EndsBy (k ()) now world time) :
    EndsBy (Timed.modify f >>= k) now world time := fun s hs => h (f s) ((hf s).trans hs)

theorem endsBy_tell_bind {e : Event} {k : Unit → Timed (BranchState ω) α}
    (h : EndsBy (k ()) now world time) : EndsBy (tell e >>= k) now world time := fun _ hs => h _ hs

theorem endsBy_attempt {axis : String} {stage : Stage} {body : Timed (BranchState ω) (RunResult α)}
    (h : EndsBy body now world time) : EndsBy (attempt axis stage body) now world time := by
  refine endsBy_now_bind (endsBy_modify_bind (fun _ => rfl) (endsBy_tell_bind ?_))
  refine endsBy_bind (n := 0) h fun result => ?_
  refine atMost_bind_of_instant (atMost_modify _) fun _ =>
    atMost_bind_of_instant atMost_now fun ended => ?_
  exact atMost_bind_of_instant (atMost_record _ _) fun _ => atMost_pure _

theorem endsBy_checkout (hcheckout : ((c.checkout ctx).runUnder none now world).ending ≠ .cut) :
    EndsBy (outside (c.checkout ctx)) now world
        ((c.checkout ctx).runUnder none now world).time := by
  rintro s rfl
  rw [outside, onProgress, runUnder_onPart isPart_progress, Progress.outside,
    runUnder_onPart Progress.isPart_world]
  exact ⟨hcheckout, Nat.le_refl _⟩

/-- **A branch ends by a known time** if its checkout comes to an end, whatever becomes of the other
calls. -/
theorem endsBy_runBranch {plan : BranchPlan} {policy : SelectorPolicy} {config : RunConfiguration}
    (limit : Option Nat) (hresolve : plan.params.resolve policy = .ok config)
    (hbudget : TimeBudget.compute config.durationMinutes config.backend config.region = .ok budget)
    (hcheckout : ((c.checkout (plan.context config)).runUnder none 0 world).ending ≠ .cut) :
    EndsBy (runBranch c policy limit plan) 0 world
      (((c.checkout (plan.context config)).runUnder none 0 world).time +
        (mainAllowance budget (limit.getD (budget.branchLimit * 1000)) +
          sweepAllowance budget)) := by
  refine endsBy_now_bind (endsBy_tell_bind ?_)
  -- Nothing that follows the stages takes time.
  refine endsBy_bind (n := 0) ?_ fun result => ?_
  · rw [runStages, hresolve]
    refine endsBy_bind (endsBy_attempt (endsBy_checkout hcheckout)) fun checkedOut => ?_
    cases checkedOut with
    | ok => exact atMost_budgeted hbudget true
    | error e =>
      dsimp only
      split
      · exact (atMost_pure _).mono (Nat.zero_le _)
      · exact atMost_budgeted hbudget false
  · cases result with
    | error e =>
      refine atMost_bind_of_instant (atMost_tell _) fun _ => atMost_get_bind fun s => ?_
      refine atMost_bind_of_instant atMost_now fun ended => ?_
      exact atMost_bind_of_instant (atMost_tell _) fun _ => atMost_pure _
    | ok r =>
      refine atMost_get_bind fun s => atMost_bind_of_instant atMost_now fun ended => ?_
      exact atMost_bind_of_instant (atMost_tell _) fun _ => atMost_pure _

end Program

/-! ## Runs -/

/-- Every stage is over within its allotment, from whatever state and under whatever deadline it is
run, and whether or not its call breaks down. -/
structure KeepsAllotments (c : Collaborators ω) (ctx : BranchContext) (budget : TimeBudget) :
    Prop where
  createRunner : (runnerStage c ctx budget).AtMost (budget.limit .runnerProvision * 1000)
  runTest : ∀ unusable, (testStage c ctx budget unusable).AtMost (budget.limit .testRun * 1000)
  collectLogs : (logStage c ctx budget).AtMost (budget.limit .logCollect * 1000)
  terminal : ∀ target build stage,
    (runTerminal c ctx budget target build stage).AtMost (budget.limit stage.allocation * 1000)
  copyArtifacts : ∀ target destination,
    (archive c ctx budget target destination).AtMost (budget.limit .logCollect * 1000)

theorem keepsAllotments (c : Collaborators ω) (ctx : BranchContext) (budget : TimeBudget) :
    KeepsAllotments c ctx budget where
  createRunner := atMost_runnerStage c ctx budget
  runTest := atMost_testStage c ctx budget
  collectLogs := atMost_logStage c ctx budget
  terminal := atMost_runTerminal c ctx budget
  copyArtifacts := atMost_archive c ctx budget

section Runs

variable {plan : BranchPlan} {policy : SelectorPolicy} {limit : Option Nat}
  {config : RunConfiguration}
  {budget : TimeBudget} {steps : List StageStep} {swept : RunResult Swept} {last : Nat}

theorem Course.spans (h : Course plan policy limit steps swept last)
    (hresolve : plan.params.resolve policy = .ok config)
    (hbudget : TimeBudget.compute config.durationMinutes config.backend config.region =
      .ok budget) :
    Spans budget 0 (notesOf steps swept) last := by
  cases h with
  | unresolved => exact .nil
  | noCheckout => exact spans_checkout _ _
  | noBudget => exact spans_checkout _ _
  | finalized hresolved _ hcomputed hfinal =>
    cases hresolve.symm.trans hresolved
    cases hbudget.symm.trans hcomputed
    exact hfinal.spans

/-- What is known of the calls of a run that comes to its end: none is in flight for too long, and
those of recorded stages are cut by their limits exactly if they need more. Main stages are run
under the branch limit too, from the return of checkout on. -/
structure CallsEnd (budget : TimeBudget) (limit : Nat) (needs : List (Option Nat))
    (steps : List StageStep) (swept : RunResult Swept) (last : Nat) : Prop where
  keeps : KeepsAllowances budget (notesOf steps swept) last
  cuts : ∀ s, swept = .ok s →
  ∃ answer stop, .returned .checkout answer stop ∈ steps.flatMap (·.notes) ∧
    CutsByNeed (some (stop + limit)) needs [] steps ∧
    CutsByNeed none needs (steps.flatMap (·.notes) ++ s.archiving.notes) (s.attempts.map .attempted)

theorem Course.callsEnd {needs : List (Option Nat)} (h : Course plan policy limit steps swept last)
    (hresolve : plan.params.resolve policy = .ok config)
    (hbudget : TimeBudget.compute config.durationMinutes config.backend config.region = .ok budget)
    (hforetells : Foretells (notesOf steps swept) needs) :
    CallsEnd budget (limit.getD (budget.branchLimit * 1000)) needs steps swept last where
  keeps := (h.spans hresolve hbudget).keeps
  cuts := by
    rintro s rfl
    cases h with
    | @finalized _ answer stop _ _ _ _ hresolved _ hcomputed hfinal =>
      cases hresolve.symm.trans hresolved
      cases hbudget.symm.trans hcomputed
      refine ⟨answer.map fun _ => none, stop, ?_, hfinal.cutsByNeed hforetells⟩
      cases hfinal with
      | intro => exact List.mem_append_left _ (List.mem_cons_of_mem _ List.mem_cons_self)

end Runs

/-- **No call stalls its branch**, whatever the collaborators do and whichever branch limit is set.
Every call is handed exactly its allotment, and none is in flight for longer. If checkout comes to
an end, so does the branch: the main stages take no longer than the branch limit and than all
allotments together, and what follows no longer than the allotments of the logs, the cleanup and the
mail. A recorded stage is cut by its own limit exactly if its call needs more than that and the
branch limit does not come first; if both come at once its own limit does. -/
theorem BranchPlan.never_stalls (plan : BranchPlan) (c : Collaborators ω) (policy : SelectorPolicy)
    (limit : Option Nat) (world : ω) {config : RunConfiguration} {budget : TimeBudget}
    (hresolve : plan.params.resolve policy = .ok config)
    (hbudget : TimeBudget.compute config.durationMinutes config.backend config.region =
      .ok budget) :
    HandsLimits budget (plan.notes c policy limit world) ∧
    KeepsAllotments c (plan.context config) budget ∧
    (((c.checkout (plan.context config)).runUnder none 0 world).ending ≠ .cut →
      (plan.runWithin c policy limit world).ending ≠ .cut ∧
        (plan.runWithin c policy limit world).time ≤
          ((c.checkout (plan.context config)).runUnder none 0 world).time +
            (min (limit.getD (budget.branchLimit * 1000))
              ((Allocation.all.map budget.limit).sum * 1000) +
              (budget.limit .logCollect + budget.limit .resourceCleanup + budget.limit .sendEmail) *
                1000)) ∧
    ∀ o, (plan.runWithin c policy limit world).ending = .done o →
      ∃ steps swept last, plan.Follows c policy limit world steps swept last ∧
        CallsEnd budget (limit.getD (budget.branchLimit * 1000)) (plan.needs c policy limit world)
          steps swept last := by
  have hends : ((c.checkout (plan.context config)).runUnder none 0 world).ending ≠ .cut → _ :=
    fun hcheckout => endsBy_runBranch limit hresolve hbudget hcheckout { progress := { world } } rfl
  have hforetells := plan.foretells c policy limit world
  cases plan.ends c policy limit world with
  | @follows steps swept last h =>
    have hspans := h.course.spans hresolve hbudget
    rw [h.notes] at hforetells ⊢
    refine ⟨hspans.hands, keepsAllotments c _ budget, hends, fun o _ => ?_⟩
    exact ⟨steps, swept, last, h, h.course.callsEnd hresolve hbudget hforetells⟩
  | stops course broken stops =>
    have hspans := course.spans hresolve hbudget
    refine ⟨fun n hn => hspans.hands n (stops.called_mem hn), keepsAllotments c _ budget, hends, ?_⟩
    intro o ho
    rw [broken] at ho
    cases ho
  | @lost config' _ ending notes calls =>
    refine ⟨fun n hn => ?_, keepsAllotments c _ budget, hends, fun o ho => absurd ho (ending o)⟩
    have hcheckout : n = checkoutCall (plan.context config') := by simpa using notes hn
    rw [hcheckout]
    rfl

theorem BranchPlan.never_stalls_hungTest :
    ∃ config budget, hourPlan.params.resolve .firstMatch = .ok config ∧
      TimeBudget.compute config.durationMinutes config.backend config.region = .ok budget ∧
      (hourPlan.needs (Rehearsal.collaborators hungTest) .firstMatch none [])[2]? =
        some (some 1000000000) ∧
      (hourPlan.runWithin (Rehearsal.collaborators hungTest) .firstMatch none []).time ≤
        (Allocation.all.map budget.limit).sum * 1000 + sweepAllowance budget ∧
      ∃ o steps swept last,
        (hourPlan.runWithin (Rehearsal.collaborators hungTest) .firstMatch none []).ending =
          .done o ∧
        hourPlan.Follows (Rehearsal.collaborators hungTest) .firstMatch none [] steps swept last ∧
        CallsEnd budget (budget.branchLimit * 1000)
          (hourPlan.needs (Rehearsal.collaborators hungTest) .firstMatch none []) steps
            swept last := by
  have hending : ∃ o,
      (hourPlan.runWithin (Rehearsal.collaborators hungTest) .firstMatch none []).ending =
        .done o :=
    ⟨_, rfl⟩
  refine ⟨_, _, rfl, rfl, rfl, ?_⟩
  obtain ⟨-, -, htime, hdone⟩ := BranchPlan.never_stalls hourPlan (Rehearsal.collaborators hungTest)
    .firstMatch none [] rfl rfl
  obtain ⟨o, ho⟩ := hending
  obtain ⟨steps, swept, last, hfollows, hcalls⟩ := hdone o ho
  obtain ⟨-, htime⟩ := htime (by rintro ⟨⟩)
  refine ⟨Nat.le_trans htime ?_, o, steps, swept, last, ho, hfollows, hcalls⟩
  show 0 + (min _ _ + sweepAllowance _) ≤ _
  rw [Nat.zero_add]
  exact Nat.add_le_add_right (Nat.min_le_right _ _) _

end Stagehand
