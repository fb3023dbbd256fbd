import Stagehand.Proofs.Branch.Running

/-!
# The calls of a branch

Which steps are called, how often and in which order, and which of the calls finish: a call finishes
when it returns or when its own limit passes, and does not when it is dropped.

* `Takes.callsOf_notes` — what getting over a stage calls follows from the steps before it.
* `callsOf_steps_sublist` — the main sequence calls every step at most once, in the fixed order.
* `isComplete_ledgerAfter` — a terminal stage is marked complete exactly if its call finished.
-/

namespace Stagehand

open Rehearsal (Call CallNote)

def hourPlan : BranchPlan where
  axis := "i4i.large"
  params := { version := some "6.1.0", durationMinutes := some 60 }
  workdir := "/work/i4i.large"
  testId := "t-1"

/-! ## Notes -/

namespace Note

/-- The call that begins. -/
def begun? : Note → Option Call
  | called n => some n.call
  | _ => none

/-- The call that returns, or whose limit passes. -/
def finished? : Note → Option Call
  | returned call _ _ | expired call _ => some call
  | _ => none

/-- The call that is dropped with its branch. -/
def dropped? : Note → Option Call
  | dropped call => some call
  | _ => none

end Note

/-- What a place in two lists, one after the other, is a place in. -/
theorem append_eq_append_cons {α : Type} {l l' before after : List α} {a : α}
    (h : l ++ l' = before ++ a :: after) :
    (∃ later, l = before ++ a :: later ∧ after = later ++ l') ∨
      ∃ between, before = l ++ between ∧ l' = between ++ a :: after := by
  obtain ⟨between, hbefore, hl'⟩ | ⟨later, hl, hafter⟩ := List.append_eq_append_iff.1 h
  · exact .inr ⟨between, hbefore, hl'⟩
  · obtain ⟨rfl, rfl⟩ | ⟨later, rfl, rfl⟩ := List.cons_eq_append_iff.1 hafter
    · exact .inr ⟨[], by simpa using hl.symm, rfl⟩
    · exact .inl ⟨later, hl, rfl⟩

def callsOf (notes : List Note) : List Call := notes.filterMap (·.begun?)

/-- The calls that finished. -/
def finishesOf (notes : List Note) : List Call := notes.filterMap (·.finished?)

def dropsOf (notes : List Note) : List Call := notes.filterMap (·.dropped?)

section Append

variable (notes notes' : List Note)

@[simp] theorem callsOf_append : callsOf (notes ++ notes') = callsOf notes ++ callsOf notes' :=
  List.filterMap_append

@[simp] theorem finishesOf_append :
    finishesOf (notes ++ notes') = finishesOf notes ++ finishesOf notes' := List.filterMap_append

@[simp] theorem dropsOf_append : dropsOf (notes ++ notes') = dropsOf notes ++ dropsOf notes' :=
  List.filterMap_append

end Append

theorem mem_dropsOf {notes : List Note} {call : Call} :
    call ∈ dropsOf notes ↔ .dropped call ∈ notes := by
  rw [dropsOf, List.mem_filterMap]
  refine ⟨?_, fun h => ⟨_, h, rfl⟩⟩
  rintro ⟨n, hn, hcall⟩
  cases n with
  | dropped => cases hcall; exact hn
  | called | returned | expired => cases hcall

theorem mem_finishesOf_of_returned {notes : List Note} {call : Call}
    {answer : RunResult (Option Network.Address)} {time : Nat}
    (h : .returned call answer time ∈ notes) : call ∈ finishesOf notes :=
  List.mem_filterMap.2 ⟨_, h, rfl⟩

section Attempts

variable (a : Attempt)

@[simp] theorem callsOf_attempt : callsOf a.notes = [a.call.call] := by
  rw [Attempt.notes]
  cases a.ending <;> rfl

@[simp] theorem finishesOf_attempt : finishesOf a.notes = [a.call.call] := by
  rw [Attempt.notes]
  cases a.ending <;> rfl

@[simp] theorem dropsOf_attempt : dropsOf a.notes = [] := by
  rw [Attempt.notes]
  cases a.ending <;> rfl

end Attempts

/-! ## The call of a stage -/

def TerminalStage.call : TerminalStage → Call
  | cleanResources => .cleanResources
  | sendEmail => .sendEmail

def Stage.call? : Stage → Option Call
  | checkout => some .checkout
  | computeBudget => none
  | createRunner => some .createRunner
  | runTest => some .runTest
  | collectLogs => some .collectLogs
  | cleanResources => some .cleanResources
  | sendEmail => some .sendEmail

theorem Stage.call?_eq_some_terminal {stage : Stage} {terminal : TerminalStage} :
    stage.call? = some terminal.call ↔ stage.terminal? = some terminal := by
  cases stage <;> cases terminal <;> decide

theorem call?_of_callAfter {ctx : BranchContext} {budget : TimeBudget} {steps : List StageStep}
    {now : Nat} {stage : Stage} {call : CallNote}
    (h : callAfter ctx budget steps now stage = some call) : stage.call? = some call.call := by
  cases stage <;> grind [callAfter, terminalCall, Stage.call?]

/-! ## Steps -/

/-- The call of a step is the one of its stage. -/
def StageStep.Fits : StageStep → Prop
  | attempted a => a.stage.call? = some a.call.call
  | cut stage call _ => stage.call? = some call.call
  | computed _ | passedOver _ _ | refused _ => True

theorem StageStep.Fits.callsOf_sublist {step : StageStep} (h : step.Fits) :
    (callsOf step.notes).Sublist step.stage.call?.toList := by
  cases step with
  | attempted a =>
    rw [stage_attempted, h, StageStep.notes, callsOf_attempt]
    exact List.Sublist.refl _
  | cut stage call stop =>
    show [call.call].Sublist stage.call?.toList
    rw [h]
    exact List.Sublist.refl _
  | computed | passedOver | refused => exact List.nil_sublist _

/-- Each of several steps calls at most what its stage is there for. -/
theorem callsOf_steps_sublist {steps : List StageStep} (h : ∀ step ∈ steps, step.Fits) :
    (callsOf (steps.flatMap (·.notes))).Sublist ((steps.map (·.stage)).filterMap (·.call?)) := by
  induction steps with
  | nil => exact List.Sublist.refl _
  | cons step rest ih =>
    have hstep := (h step List.mem_cons_self).callsOf_sublist
    have hrest := ih fun step hstep => h step (List.mem_cons_of_mem _ hstep)
    have hcalls : ((step :: rest).map (·.stage)).filterMap (·.call?) =
        step.stage.call?.toList ++ (rest.map (·.stage)).filterMap (·.call?) := by
      cases hcall : step.stage.call? <;> simp [hcall]
    rw [hcalls, List.flatMap_cons, callsOf_append]
    exact hstep.append hrest

/-- Every call either finishes or is dropped. -/
theorem count_callsOf_steps (steps : List StageStep) (call : Call) :
    (callsOf (steps.flatMap (·.notes))).count call =
      (finishesOf (steps.flatMap (·.notes))).count call +
        (dropsOf (steps.flatMap (·.notes))).count call := by
  induction steps with
  | nil => rfl
  | cons step rest ih =>
    have hstep : (callsOf step.notes).count call =
        (finishesOf step.notes).count call + (dropsOf step.notes).count call := by
      cases step with
      | attempted a => simp [StageStep.notes]
      | cut stage call stop => simp [StageStep.notes, callsOf, finishesOf, dropsOf, Note.begun?,
          Note.finished?, Note.dropped?]
      | computed | passedOver | refused => rfl
    simp only [List.flatMap_cons, callsOf_append, finishesOf_append, dropsOf_append,
      List.count_append]
    omega

theorem finishesOf_steps_subset (steps : List StageStep) :
    finishesOf (steps.flatMap (·.notes)) ⊆ callsOf (steps.flatMap (·.notes)) := by
  intro call hcall
  have hcount := count_callsOf_steps steps call
  have hpos := List.count_pos_iff.2 hcall
  exact List.count_pos_iff.1 (by omega)

theorem mem_finishesOf_of_undropped {steps : List StageStep} {call : Call}
    (h : dropsOf (steps.flatMap (·.notes)) = [])
    (hcall : call ∈ callsOf (steps.flatMap (·.notes))) :
    call ∈ finishesOf (steps.flatMap (·.notes)) := by
  have hcount := count_callsOf_steps steps call
  rw [h, List.count_nil, Nat.add_zero] at hcount
  rw [← List.count_pos_iff, ← hcount]
  exact List.count_pos_iff.2 hcall

theorem count_finishesOf_steps {steps : List StageStep} (h : ∀ step ∈ steps, step.Fits)
    (stage : TerminalStage) :
    (finishesOf (steps.flatMap (·.notes))).count stage.call =
      (steps.filterMap (·.marked?)).count stage := by
  induction steps with
  | nil => rfl
  | cons step rest ih =>
    have hrest := ih fun step hstep => h step (List.mem_cons_of_mem _ hstep)
    -- Only an attempt finishes a call, and it marks the stage exactly if that is terminal.
    have hstep : (finishesOf step.notes).count stage.call = step.marked?.toList.count stage := by
      have hfits := h step List.mem_cons_self
      cases step with
      | attempted a =>
        have hiff : a.call.call = stage.call ↔ a.stage.terminal? = some stage := by
          rw [← Stage.call?_eq_some_terminal, show a.stage.call? = some a.call.call from hfits,
            Option.some.injEq]
        rw [StageStep.notes, StageStep.marked?, finishesOf_attempt]
        by_cases hterminal : a.stage.terminal? = some stage
        · rw [hterminal, hiff.2 hterminal]
          simp
        · have hcall : a.call.call ≠ stage.call := fun h => hterminal (hiff.1 h)
          have hnot : stage ∉ a.stage.terminal?.toList := by
            simpa [Option.mem_toList] using hterminal
          rw [List.count_eq_zero.2 hnot, List.count_singleton, if_neg (by simpa using hcall)]
      | cut | computed | passedOver | refused => rfl
    have hmarks : (step :: rest).filterMap (·.marked?) =
        step.marked?.toList ++ rest.filterMap (·.marked?) := by
      cases hmarked : step.marked? <;> simp [hmarked]
    rw [hmarks, List.flatMap_cons, finishesOf_append, List.count_append, List.count_append,
      hstep, hrest]

/-! ## The ledger -/

namespace Ledger

theorem isComplete_mark (l : Ledger) (stage stage' : TerminalStage) :
    (l.mark stage').isComplete stage = (l.isComplete stage || stage' == stage) := by
  cases stage <;> cases stage' <;> simp [mark, isComplete]

theorem isComplete_foldl_mark (marks : List TerminalStage) (l : Ledger) (stage : TerminalStage) :
    (marks.foldl mark l).isComplete stage = (l.isComplete stage || marks.contains stage) := by
  induction marks generalizing l with
  | nil => simp
  | cons head rest ih =>
    rw [List.foldl_cons, ih, isComplete_mark, List.contains_cons, Bool.or_assoc, Bool.beq_comm]

theorem mem_missing {l : Ledger} {stage : TerminalStage} :
    stage ∈ l.missing ↔ l.isComplete stage = false := by
  have horder : stage ∈ TerminalStage.order := by
    cases stage <;> decide
  simp [missing, horder]

theorem isComplete_foldl_mark_missing (l : Ledger) (stage : TerminalStage) :
    (l.missing.foldl mark l).isComplete stage = true := by
  rw [isComplete_foldl_mark]
  cases hcomplete : l.isComplete stage with
  | true => rfl
  | false => rw [Bool.false_or, List.contains_iff_mem, mem_missing, hcomplete]

theorem allComplete_of_isComplete {l : Ledger} (h : ∀ stage, l.isComplete stage = true) :
    l.allComplete = true := by
  rw [allComplete, List.isEmpty_iff, List.eq_nil_iff_forall_not_mem]
  intro stage hstage
  rw [mem_missing, h stage] at hstage
  cases hstage

end Ledger

/-- A terminal stage is complete exactly if its call finished. -/
theorem isComplete_ledgerAfter {steps : List StageStep} (h : ∀ step ∈ steps, step.Fits)
    (stage : TerminalStage) :
    (ledgerAfter steps).isComplete stage = true ↔
      stage.call ∈ finishesOf (steps.flatMap (·.notes)) := by
  have hempty : Ledger.empty.isComplete stage = false := by
    cases stage <;> rfl
  rw [ledgerAfter, Ledger.isComplete_foldl_mark, hempty, Bool.false_or, List.contains_iff_mem,
    ← List.count_pos_iff, ← List.count_pos_iff, count_finishesOf_steps h]

/-! ## Courses -/

section Courses

variable {ctx : BranchContext} {budget : TimeBudget} {deadline : Option Nat}
  {steps : List StageStep} {now : Nat}

theorem Takes.fits {stage : Stage} {step : StageStep} {time : Nat}
    (h : Takes ctx budget deadline steps now stage step time) : step.Fits := by
  cases h with
  | attempted hcall ha =>
    show Stage.call? _ = _
    rw [ha.hstage, ha.hcall, call?_of_callAfter hcall]
  | passedOver => trivial
  | refused => trivial

theorem Takes.callsOf_notes {stage : Stage} {step : StageStep} {time : Nat}
    (h : Takes ctx budget deadline steps now stage step time) :
    callsOf step.notes = ((callAfter ctx budget steps now stage).map (·.call)).toList := by
  cases h with
  | attempted hcall ha => rw [hcall, StageStep.notes, callsOf_attempt, ha.hcall]; rfl
  | passedOver hstage hbackend => rw [hstage, callAfter, hbackend]; rfl
  | refused hstage hreason => rw [hstage, callAfter, hreason]; rfl

theorem Path.fits {stages : List Stage} {taken : List StageStep} {last : Nat}
    (h : Path ctx budget deadline steps now stages taken last) : ∀ step ∈ taken, step.Fits := by
  induction h with
  | nil => exact List.forall_mem_nil _
  | cons htakes _ ih => exact List.forall_mem_cons.2 ⟨htakes.fits, ih⟩

theorem Path.map_stage {stages : List Stage} {taken : List StageStep} {last : Nat}
    (h : Path ctx budget deadline steps now stages taken last) : taken.map (·.stage) = stages := by
  induction h with
  | nil => rfl
  | cons htakes _ ih => rw [List.map_cons, htakes.stage_eq, ih]

variable {limit : Nat} {checkedOut : Bool} {taken : List StageStep} {last : Nat}

theorem MainCourse.fits (h : MainCourse ctx budget limit steps now checkedOut taken last) :
    ∀ step ∈ taken, step.Fits := by
  cases h with
  | complete hpath => exact hpath.fits
  | cut _ hpath hcuts =>
    simp only [List.mem_append, List.mem_singleton]
    rintro step (hstep | rfl)
    · exact hpath.fits step hstep
    · exact call?_of_callAfter hcuts.hcall
  | noWorkspace =>
    simp only [List.mem_map]
    rintro step ⟨stage, -, rfl⟩
    trivial

/-- The main sequence is come to in its order, up to a cut. -/
theorem MainCourse.map_stage (h : MainCourse ctx budget limit steps now checkedOut taken last) :
    taken.map (·.stage) <+: mainSequence := by
  cases h with
  | complete hpath => simp only [hpath.map_stage, List.prefix_rfl]
  | cut hsequence hpath _ =>
    rw [List.map_append, hpath.map_stage, hsequence, List.append_cons]
    exact List.prefix_append _ _
  | noWorkspace => exact ⟨[.cleanResources, .sendEmail], rfl⟩

theorem fits_preparation (answer : RunResult Unit) (stop : Nat) :
    ∀ step ∈ preparation ctx answer stop budget, step.Fits := by
  simp only [preparation, List.mem_cons, List.not_mem_nil, or_false]
  rintro step (rfl | rfl)
  · rfl
  · trivial

theorem MainCourse.callsOf_sublist
    (h : MainCourse ctx budget limit steps now checkedOut taken last) :
    (callsOf (taken.flatMap (·.notes))).Sublist
      [.createRunner, .runTest, .collectLogs, .cleanResources, .sendEmail] :=
  (callsOf_steps_sublist h.fits).trans (h.map_stage.sublist.filterMap _)

variable {answer : RunResult Unit} {stop : Nat} {swept : Swept}

theorem FinalCourse.fits (h : FinalCourse ctx budget limit (preparation ctx answer stop budget) now
    checkedOut steps swept last) : ∀ step ∈ steps, step.Fits := by
  cases h with
  | intro hmain _ _ => exact List.forall_mem_append.2 ⟨fits_preparation answer stop, hmain.fits⟩

theorem FinalCourse.map_stage
    (h : FinalCourse ctx budget limit (preparation ctx answer stop budget) now
    checkedOut steps swept last) : steps.map (·.stage) <+: Stage.sequence := by
  cases h with
  | intro hmain _ _ =>
    have hpreparation : (preparation ctx answer stop budget).map (·.stage) =
        [.checkout, .computeBudget] := by
      rw [preparation, List.map_cons, StageStep.stage_attempted]
      rfl
    rw [List.map_append, hpreparation]
    exact (List.prefix_append_right_inj _).2 hmain.map_stage

/-- Every stage before the sweep is called at most once, in order. -/
theorem FinalCourse.callsOf_sublist (h : FinalCourse ctx budget limit
    (preparation ctx answer stop budget) now checkedOut steps swept last) :
    (callsOf (steps.flatMap (·.notes))).Sublist
      [.checkout, .createRunner, .runTest, .collectLogs, .cleanResources, .sendEmail] :=
  (callsOf_steps_sublist h.fits).trans (h.map_stage.sublist.filterMap _)

/-! ### The sweep -/

variable {target : Target} {build : BuildResult} {stages : List TerminalStage}
  {attempts : List Attempt}

theorem call_terminalCall (target : Target) (build : BuildResult) (time : Nat)
    (stage : TerminalStage) :
    (terminalCall ctx budget target build time stage).call = stage.call := by
  cases stage <;> rfl

theorem Sweeps.map_stage (h : Sweeps ctx budget target build now stages attempts last) :
    attempts.map (·.stage) = stages.map (·.toStage) := by
  induction h with
  | nil => rfl
  | cons ha _ ih => rw [List.map_cons, List.map_cons, ha.hstage, ih]

/-- The sweep calls what it was to run; every such call finishes. -/
theorem Sweeps.callsOf_notes (h : Sweeps ctx budget target build now stages attempts last) :
    callsOf (attempts.flatMap (·.notes)) = stages.map (·.call) ∧
      finishesOf (attempts.flatMap (·.notes)) = stages.map (·.call) ∧
      dropsOf (attempts.flatMap (·.notes)) = [] := by
  induction h with
  | nil => exact ⟨rfl, rfl, rfl⟩
  | cons ha _ ih =>
    obtain ⟨hcalls, hfinishes, hdrops⟩ := ih
    simp [hcalls, hfinishes, hdrops, ha.hcall, call_terminalCall]

theorem Archives.callsOf_notes {destination : String} {a : Archiving}
    (h : Archives ctx budget target destination now a) :
    callsOf a.notes = [.copyArtifacts] ∧ (finishesOf a.notes).Sublist [.copyArtifacts] ∧
      dropsOf a.notes = [] := by
  rw [Archiving.notes, h.hcall]
  cases a.ending with
  | returned => exact ⟨rfl, List.Sublist.refl _, rfl⟩
  | expired => exact ⟨rfl, List.nil_sublist _, rfl⟩

/-- The sweep calls the archive, and then what is missing. -/
theorem FinalCourse.callsOf_swept {before : List StageStep}
    (h : FinalCourse ctx budget limit before now checkedOut steps swept last) :
    callsOf swept.notes = .copyArtifacts :: (ledgerAfter steps).missing.map (·.call) := by
  cases h with
  | intro _ harchives hsweeps =>
    rw [Swept.notes, callsOf_append, harchives.callsOf_notes.1, hsweeps.callsOf_notes.1]
    rfl

end Courses

end Stagehand
