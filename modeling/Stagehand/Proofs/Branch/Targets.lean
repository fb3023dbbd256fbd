import Stagehand.Branch.FanOut
import Stagehand.Dispatch.AddressFile
import Stagehand.Proofs.Branch.CallOrder
import Stagehand.Proofs.Branch.Records

/-!
# Where a branch runs

A branch has one target from the time at which its runner was to be created: the runner if its
creation came back with an address, and this host if it did not, for whatever reason. The test, the
collection of logs, the cleanup and the archive all go there, in the main sequence as in the sweep.
If the creation failed fatally there is no such target for the test: it is refused, here as well,
and the branch does not pass.

The target is written by one stage and read by all that follow, and a branch may be cut or break
down anywhere between. So what is shown is a property of notes that every beginning of them shares
(`Aimed`): a call is given what was known when it was made, and nothing is learnt about the runner
after the first call that needs to know.

Main result: `BranchPlan.one_target`.
-/

namespace Stagehand

open Rehearsal (Call CallNote)

/-! ## What notes tell of the runner -/

def Rehearsal.Call.takesTarget : Call → Bool
  | runTest | collectLogs | cleanResources | copyArtifacts => true
  | checkout | createRunner | sendEmail => false

/-- The note tells that the creation of a runner came back. -/
def Note.isCreation : Note → Bool
  | .returned .createRunner _ _ => true
  | _ => false

/-- The address that the creation of a runner came back with. -/
def Note.runner? : Note → Option Network.Address
  | .returned .createRunner (.ok address) _ => address
  | _ => none

def runnerOf (notes : List Note) : Option Network.Address := notes.findSome? (·.runner?)

/-- Where a branch with this runner runs, or one without any. -/
def targetOf (runner : Option Network.Address) : Target := runner.elim .here .remote

/-- How a call ended tells of no creation, if that was not what was called. -/
theorem Note.isCreation_of_ne {ending : CallEnding} {call : Call} {time : Nat}
    (h : call ≠ .createRunner) : (ending.note call time).isCreation = false := by
  cases ending <;> cases call <;> first | rfl | exact absurd rfl h

theorem Note.runner?_eq_none {note : Note} (h : note.isCreation = false) : note.runner? = none := by
  unfold isCreation at h
  unfold runner?
  split at h
  · cases h
  · split
    · simp_all
    · rfl

theorem Note.isRefusal_eq_false {note : Note} (h : note.isCreation = false) :
    note.isRefusal = false := by
  unfold isCreation at h
  unfold isRefusal
  split at h
  · cases h
  · split
    · simp_all
    · rfl

theorem runnerOf_append (notes later : List Note) :
    runnerOf (notes ++ later) = (runnerOf notes).or (runnerOf later) :=
  List.findSome?_append

theorem runnerOf_append_of_quiet {notes later : List Note}
    (h : ∀ note ∈ later, note.isCreation = false) : runnerOf (notes ++ later) = runnerOf notes := by
  have hnone : runnerOf later = none :=
    List.findSome?_eq_none_iff.2 fun note hnote => Note.runner?_eq_none (h note hnote)
  rw [runnerOf_append, hnone, Option.or_none]

theorem any_isRefusal_append_of_quiet {notes later : List Note}
    (h : ∀ note ∈ later, note.isCreation = false) :
    (notes ++ later).any (·.isRefusal) = notes.any (·.isRefusal) := by
  have hnone : later.any (·.isRefusal) = false :=
    List.any_eq_false.2 fun note hnote => by simp [Note.isRefusal_eq_false (h note hnote)]
  rw [List.any_append, hnone, Bool.or_false]

/-! ## Notes with one target -/

/-- The note tells of no creation, and of no call but one that goes to the target; that
is no test. -/
structure Note.HeadsFor (target : Target) (note : Note) : Prop where
  quiet : note.isCreation = false
  called : ∀ n, note = .called n → n.call ≠ .runTest ∧
    n.target = if n.call.takesTarget then some target else none

/-- After these notes the call is due: it is given the target that follows from them, and it is not
that of a test whose runner is unusable. -/
structure Heeds (notes : List Note) (n : CallNote) : Prop where
  target : n.target = if n.call.takesTarget then some (targetOf (runnerOf notes)) else none
  usable : n.call = .runTest → notes.any (·.isRefusal) = false

theorem Note.headsFor_called {target : Target} {n : CallNote} (hcall : n.call ≠ .runTest)
    (htarget : n.target = if n.call.takesTarget then some target else none) :
    (Note.called n).HeadsFor target := by
  refine ⟨rfl, fun other hother => ?_⟩
  obtain rfl := Note.called.inj hother
  exact ⟨hcall, htarget⟩

/-- How a call ended is no concern of the runner, but for its creation. -/
theorem Note.headsFor_ending {target : Target} {call : Call} {ending : CallEnding} {time : Nat}
    (h : call ≠ .createRunner) : (ending.note call time).HeadsFor target := by
  refine ⟨isCreation_of_ne h, fun n hn => ?_⟩
  cases ending <;> cases hn

/-- Nothing is known of a runner yet, and nothing was called that is given a target. -/
structure Unaimed (notes : List Note) : Prop where
  quiet : ∀ note ∈ notes, note.isCreation = false
  untargeted : ∀ n, .called n ∈ notes → n.call.takesTarget = false

/-- Every call heeds what was noted before it, and a runner is created once, before all calls that
are given a target. -/
structure Aimed (notes : List Note) : Prop where
  called : ∀ before n, before ++ [.called n] <+: notes → Heeds before n
  created : ∀ before note, before ++ [note] <+: notes → note.isCreation = true → Unaimed before

theorem Unaimed.called {notes : List Note} (h : Unaimed notes) {n : CallNote}
    (hn : n.call.takesTarget = false) : Unaimed (notes ++ [.called n]) where
  quiet := List.forall_mem_append.2 ⟨h.quiet, List.forall_mem_singleton.2 rfl⟩
  untargeted other hother := by
    rcases List.mem_append.1 hother with hother | hother
    · exact h.untargeted other hother
    · obtain rfl := Note.called.inj (List.mem_singleton.1 hother)
      exact hn

namespace Aimed

variable {notes : List Note}

theorem nil : Aimed [] where
  called before n h := by simp at h
  created before note h := by simp at h

theorem of_prefix {whole : List Note} (h : Aimed whole) (hp : notes <+: whole) : Aimed notes where
  called before n hbefore := h.called before n (hbefore.trans hp)
  created before note hbefore := h.created before note (hbefore.trans hp)

theorem snoc (h : Aimed notes) {note : Note} (hcalled : ∀ n, note = .called n → Heeds notes n)
    (hcreated : note.isCreation = true → Unaimed notes) : Aimed (notes ++ [note]) := by
  constructor
  · intro before n hbefore
    rcases List.prefix_concat_iff.1 hbefore with heq | hbefore
    · obtain ⟨rfl, hlast⟩ := List.append_inj' heq rfl
      exact hcalled n (List.singleton_inj.1 hlast).symm
    · exact h.called before n hbefore
  · intro before other hbefore hother
    rcases List.prefix_concat_iff.1 hbefore with heq | hbefore
    · obtain ⟨rfl, hlast⟩ := List.append_inj' heq rfl
      obtain rfl := List.singleton_inj.1 hlast
      exact hcreated hother
    · exact h.created before other hbefore hother

/-- Later notes that tell of no creation, and of calls that go to the target. -/
theorem append {later : List Note} (h : Aimed notes)
    (hlater : ∀ note ∈ later, note.HeadsFor (targetOf (runnerOf notes))) :
    Aimed (notes ++ later) := by
  induction later generalizing notes with
  | nil => rwa [List.append_nil]
  | cons note later ih =>
    obtain ⟨hnote, hrest⟩ := List.forall_mem_cons.1 hlater
    have hrunner : runnerOf (notes ++ [note]) = runnerOf notes :=
      runnerOf_append_of_quiet (by simpa using hnote.quiet)
    have hsnoc : Aimed (notes ++ [note]) := by
      refine h.snoc ?_ fun hcreation => ?_
      · rintro n rfl
        obtain ⟨htest, htarget⟩ := hnote.called n rfl
        exact ⟨htarget, fun hn => absurd hn htest⟩
      · rw [hnote.quiet] at hcreation
        cases hcreation
    rw [List.append_cons]
    rw [← hrunner] at hrest
    exact ih hsnoc hrest

theorem of_headsFor (h : ∀ note ∈ notes, note.HeadsFor .here) : Aimed notes := by
  have happend := nil.append h
  rwa [List.nil_append] at happend

theorem quiet_after {before after : List Note} {n : CallNote}
    (h : Aimed (before ++ .called n :: after)) (hn : n.call.takesTarget = true) :
    ∀ note ∈ .called n :: after, note.isCreation = false := by
  intro note hnote
  rcases List.mem_cons.1 hnote with rfl | hnote
  · rfl
  · obtain ⟨early, late, rfl⟩ := List.append_of_mem hnote
    cases hcreation : note.isCreation with
    | false => rfl
    | true =>
      have hunaimed := h.created (before ++ .called n :: early) note ⟨late, by simp⟩ hcreation
      have hcalls := hunaimed.untargeted n (by simp)
      rw [hn] at hcalls
      cases hcalls

/-- All calls that are given a target are given the same. -/
theorem target_eq (h : Aimed notes) {n : CallNote} (hn : .called n ∈ notes) :
    n.target = if n.call.takesTarget then some (targetOf (runnerOf notes)) else none := by
  obtain ⟨before, after, rfl⟩ := List.append_of_mem hn
  have hheeds := (h.called before n ⟨after, by simp⟩).target
  by_cases htakes : n.call.takesTarget = true
  · rw [runnerOf_append_of_quiet (h.quiet_after htakes)]
    exact hheeds
  · rw [if_neg htakes] at hheeds ⊢
    exact hheeds

/-- Where the runner is unusable no test is run. -/
theorem not_tested (h : Aimed notes) (hrefusal : notes.any (·.isRefusal) = true) :
    .runTest ∉ callsOf notes := by
  intro hcalled
  obtain ⟨note, hnote, hbegun⟩ := List.mem_filterMap.1 hcalled
  cases note with
  | called n =>
    have hn : n.call = .runTest := Option.some.inj hbegun
    obtain ⟨before, after, rfl⟩ := List.append_of_mem hnote
    have husable := (h.called before n ⟨after, by simp⟩).usable hn
    rw [any_isRefusal_append_of_quiet (h.quiet_after (by rw [hn]; rfl)), husable] at hrefusal
    cases hrefusal
  | returned | expired | dropped => cases hbegun

theorem runnerOf_eq_some_iff (h : Aimed notes) {address : Network.Address} :
    runnerOf notes = some address ↔
      ∃ time, .returned .createRunner (.ok (some address)) time ∈ notes := by
  constructor
  · intro hrunner
    obtain ⟨note, hnote, haddress⟩ := List.exists_of_findSome?_eq_some hrunner
    unfold Note.runner? at haddress
    split at haddress
    · subst haddress
      exact ⟨_, hnote⟩
    · cases haddress
  · rintro ⟨time, hnote⟩
    obtain ⟨before, after, rfl⟩ := List.append_of_mem hnote
    have hunaimed := h.created before (.returned .createRunner (.ok (some address)) time)
      ⟨after, by simp⟩ rfl
    have hnone : runnerOf before = none := List.findSome?_eq_none_iff.2 fun note hnote =>
      Note.runner?_eq_none (hunaimed.quiet note hnote)
    rw [runnerOf_append, hnone, Option.none_or]
    rfl

end Aimed

/-! ## Steps -/

theorem StageStep.Fits.runnerOf_notes {step : StageStep} (h : step.Fits) :
    runnerOf step.notes = step.address? := by
  cases step with
  | attempted a =>
    have hcall : a.stage.call? = some a.call.call := h
    have hnotes : runnerOf (attempted a).notes = (a.ending.note a.call.call a.stop).runner? := by
      simp [StageStep.notes, Attempt.notes, runnerOf, Note.runner?]
    rw [hnotes]
    by_cases hstage : a.stage = .createRunner
    · have hname := (Stage.createRunner_iff hcall).2 hstage
      rw [StageStep.address?, StageStep.creation?, if_pos hstage, Attempt.result, hname]
      rcases a.ending with ⟨_ | _⟩ | _ <;> rfl
    · have hne := mt (Stage.createRunner_iff hcall).1 hstage
      rw [Note.runner?_eq_none (Note.isCreation_of_ne hne), StageStep.address?,
        StageStep.creation?_attempted hstage]
  | cut | computed | passedOver | refused => rfl

theorem runnerOf_steps {steps : List StageStep} (h : ∀ step ∈ steps, step.Fits) :
    runnerOf (steps.flatMap (·.notes)) = runnerAfter steps := by
  induction steps with
  | nil => rfl
  | cons step rest ih =>
    obtain ⟨hstep, hrest⟩ := List.forall_mem_cons.1 h
    rw [List.flatMap_cons, runnerOf_append, hstep.runnerOf_notes, ih hrest,
      runnerAfter, runnerAfter, List.findSome?_cons]
    cases step.address? <;> rfl

section Courses

variable {ctx : BranchContext} {budget : TimeBudget} {deadline : Option Nat} {limit : Nat}
  {checkedOut : Bool} {steps taken : List StageStep} {now stop last : Nat} {answer : RunResult Unit}
  {swept : Swept}

/-- A test is due only if its runner is not unusable. -/
theorem refusalAfter_of_runTest {n : CallNote}
    (h : callAfter ctx budget steps now .runTest = some n) : refusalAfter steps = none := by
  rw [callAfter] at h
  split at h
  · exact Option.isNone_iff_eq_none.1 ‹_›
  · cases h

/-- What is called at a stage heeds what was noted at the stages before it. -/
theorem heeds_callAfter {stage : Stage} {n : CallNote} (hfits : ∀ step ∈ steps, step.Fits)
    (h : callAfter ctx budget steps now stage = some n) : Heeds (steps.flatMap (·.notes)) n := by
  constructor
  · have htarget : targetOf (runnerOf (steps.flatMap (·.notes))) = targetAfter steps :=
      congrArg targetOf (runnerOf_steps hfits)
    rw [htarget]
    cases stage <;> grind [callAfter, terminalCall, Rehearsal.Call.takesTarget]
  · intro hn
    have hcall := call?_of_callAfter h
    rw [hn] at hcall
    have hstage : stage = .runTest := by
      cases stage <;> simp [Stage.call?] at hcall ⊢
    subst hstage
    rw [any_isRefusal_steps hfits, refusalAfter_of_runTest h]
    rfl

theorem Aimed.called_of_callAfter {stage : Stage} {n : CallNote}
    (h : Aimed (steps.flatMap (·.notes))) (hfits : ∀ step ∈ steps, step.Fits)
    (hcall : callAfter ctx budget steps now stage = some n) :
    Aimed (steps.flatMap (·.notes) ++ [.called n]) := by
  refine h.snoc (fun other hother => ?_) fun hcreation => by cases hcreation
  obtain rfl := Note.called.inj hother
  exact heeds_callAfter hfits hcall

/-- A step that creates a runner is the first one that is concerned with it. -/
theorem Takes.aimed {stage : Stage} {step : StageStep} {time : Nat}
    (h : Takes ctx budget deadline steps now stage step time) (hfits : ∀ step ∈ steps, step.Fits)
    (haimed : Aimed (steps.flatMap (·.notes)))
    (hfirst : stage = .createRunner → Unaimed (steps.flatMap (·.notes))) :
    Aimed ((steps ++ [step]).flatMap (·.notes)) := by
  rw [List.flatMap_append, List.flatMap_singleton]
  cases h with
  | @attempted a call hcall ha =>
    obtain rfl := ha.hcall
    rw [StageStep.notes, Attempt.notes, List.append_cons]
    refine (haimed.called_of_callAfter hfits hcall).snoc (fun n hn => ?_) fun hcreation => ?_
    · cases hending : a.ending <;> rw [hending] at hn <;> cases hn
    · -- What came back is the creation of a runner, so this is its stage.
      have hname : a.call.call = .createRunner := by
        by_cases hname : a.call.call = .createRunner
        · exact hname
        · rw [Note.isCreation_of_ne hname] at hcreation
          cases hcreation
      have hstage := (Stage.createRunner_iff (call?_of_callAfter hcall)).1 hname
      exact (hfirst hstage).called (by rw [hname]; rfl)
  | passedOver | refused => rwa [StageStep.notes, List.append_nil]

theorem Takes.fits_snoc {stage : Stage} {step : StageStep} {time : Nat}
    (h : Takes ctx budget deadline steps now stage step time) (hfits : ∀ step ∈ steps, step.Fits) :
    ∀ other ∈ steps ++ [step], other.Fits :=
  List.forall_mem_append.2 ⟨hfits, List.forall_mem_singleton.2 h.fits⟩

theorem Path.aimed {stages : List Stage} (h : Path ctx budget deadline steps now stages taken last)
    (hstages : .createRunner ∉ stages) (hfits : ∀ step ∈ steps, step.Fits)
    (haimed : Aimed (steps.flatMap (·.notes))) : Aimed ((steps ++ taken).flatMap (·.notes)) := by
  induction h with
  | nil => rwa [List.append_nil]
  | cons htakes _ ih =>
    rw [List.mem_cons, not_or] at hstages
    have hstep := htakes.aimed hfits haimed fun h => absurd h.symm hstages.1
    rw [List.append_cons]
    exact ih hstages.2 (htakes.fits_snoc hfits) hstep

theorem aimed_checkout : Aimed (checkoutAttempt ctx answer stop).notes := by
  refine .of_headsFor fun note hnote => ?_
  rcases List.mem_cons.1 hnote with rfl | hnote
  · exact Note.headsFor_called nofun rfl
  · obtain rfl := List.mem_singleton.1 hnote
    exact Note.headsFor_ending nofun

theorem unaimed_checkout : Unaimed (checkoutAttempt ctx answer stop).notes where
  quiet := by simp [Attempt.notes, checkoutAttempt, CallEnding.note, Note.isCreation]
  untargeted := by
    simp [Attempt.notes, checkoutAttempt, CallEnding.note, Rehearsal.Call.takesTarget]

/-- The main sequence creates a runner first, and no other later. -/
theorem createRunner_not_mem {stage : Stage} {rest late : List Stage}
    (h : mainSequence = stage :: rest ++ late) : stage = .createRunner ∧ .createRunner ∉ rest := by
  have hnodup : mainSequence.Nodup := by decide
  obtain ⟨rfl, -⟩ := List.cons.inj h
  rw [h] at hnodup
  exact ⟨rfl, fun hmem => (List.nodup_cons.1 hnodup).1 (List.mem_append_left _ hmem)⟩

/-- The main sequence keeps to one target, as far as it comes. -/
theorem Path.aimed_mainSequence {early late : List Stage} (hsequence : mainSequence = early ++ late)
    (h : Path ctx budget deadline (preparation ctx answer stop budget) now early taken last) :
    Aimed ((preparation ctx answer stop budget ++ taken).flatMap (·.notes)) := by
  cases h with
  | nil =>
    rw [List.append_nil]
    exact aimed_checkout
  | cons htakes hpath =>
    obtain ⟨-, hlater⟩ := createRunner_not_mem hsequence
    have hfits : ∀ step ∈ preparation ctx answer stop budget, step.Fits :=
      fits_preparation answer stop
    have hstep := htakes.aimed hfits aimed_checkout fun _ => unaimed_checkout
    rw [List.append_cons]
    exact hpath.aimed hlater (htakes.fits_snoc hfits) hstep

theorem MainCourse.aimed
    (h : MainCourse ctx budget limit
      (preparation ctx answer stop budget) now checkedOut taken last) :
    Aimed ((preparation ctx answer stop budget ++ taken).flatMap (·.notes)) := by
  cases h with
  | complete hpath => exact hpath.aimed_mainSequence (List.append_nil _).symm
  | @cut early late stage taken time call _ hsequence hpath hcuts =>
    have hfits : ∀ step ∈ preparation ctx answer stop budget ++ taken, step.Fits :=
      List.forall_mem_append.2 ⟨fits_preparation answer stop, hpath.fits⟩
    have hcalled := (hpath.aimed_mainSequence hsequence).called_of_callAfter hfits hcuts.hcall
    rw [← List.append_assoc, List.flatMap_append, List.flatMap_singleton, StageStep.notes,
      List.append_cons]
    exact hcalled.snoc (fun n hn => by cases hn) fun h => by cases h
  | noWorkspace =>
    have hnone : (stagesOnWorkspace.map (StageStep.passedOver · "checkout failed")).flatMap
        (·.notes) = [] := rfl
    rw [List.flatMap_append, hnone, List.append_nil]
    exact aimed_checkout

/-! ## The sweep -/

theorem Archives.headsFor {target : Target} {destination : String} {a : Archiving}
    (h : Archives ctx budget target destination now a) :
    ∀ note ∈ a.notes, note.HeadsFor target := by
  intro note hnote
  rw [Archiving.notes, h.hcall, List.mem_cons] at hnote
  rcases hnote with rfl | hnote
  · exact Note.headsFor_called (by rintro ⟨⟩) rfl
  · have hending : note = a.ending.note .copyArtifacts a.stop := by
      cases hending : a.ending <;> rw [hending] at hnote
      · exact List.mem_singleton.1 hnote
      · cases hnote
    rw [hending]
    exact Note.headsFor_ending (by rintro ⟨⟩)

theorem Sweeps.headsFor {target : Target} {build : BuildResult} {stages : List TerminalStage}
    {attempts : List Attempt} (h : Sweeps ctx budget target build now stages attempts last) :
    ∀ note ∈ attempts.flatMap (·.notes), note.HeadsFor target := by
  induction h with
  | nil => exact List.forall_mem_nil _
  | @cons now stage _ a _ _ ha _ ih =>
    rw [List.flatMap_cons, List.forall_mem_append]
    refine ⟨fun note hnote => ?_, ih⟩
    rw [Attempt.notes, ha.hcall, List.mem_cons, List.mem_singleton] at hnote
    rcases hnote with rfl | rfl
    · cases stage <;> exact Note.headsFor_called (by rintro ⟨⟩) rfl
    · cases stage <;> exact Note.headsFor_ending (by rintro ⟨⟩)

theorem FinalCourse.headsFor (h : FinalCourse ctx budget limit (preparation ctx answer stop budget)
    now checkedOut steps swept last) : ∀ note ∈ swept.notes,
      note.HeadsFor (targetOf (runnerOf (steps.flatMap (·.notes)))) := by
  rw [runnerOf_steps h.fits]
  cases h with
  | intro _ harchives hsweeps =>
    exact List.forall_mem_append.2 ⟨harchives.headsFor, hsweeps.headsFor⟩

theorem FinalCourse.aimed (h : FinalCourse ctx budget limit (preparation ctx answer stop budget)
    now checkedOut steps swept last) : Aimed (notesOf steps (.ok swept)) := by
  have hswept := h.headsFor
  cases h with
  | intro hmain _ _ => exact hmain.aimed.append hswept

theorem FinalCourse.runnerOf_notes (h : FinalCourse ctx budget limit
    (preparation ctx answer stop budget) now checkedOut steps swept last) :
    runnerOf (notesOf steps (.ok swept)) = runnerAfter steps := by
  rw [notesOf, runnerOf_append_of_quiet fun note hnote => (h.headsFor note hnote).quiet,
    runnerOf_steps h.fits]

/-! ## Unusable runners -/

/-- Where the test comes next and its runner is unusable, the test is refused. -/
theorem Path.refused_mem {stages : List Stage} {reason : RunError}
    (h : Path ctx budget deadline steps now (.runTest :: stages) taken last)
    (hreason : refusalAfter steps = some reason) : .refused reason ∈ taken := by
  cases h with
  | cons htakes _ =>
    cases htakes with
    | attempted hcall =>
      rw [refusalAfter_of_runTest hcall] at hreason
      cases hreason
    | passedOver hstage => cases hstage
    | refused _ hrefused =>
      obtain rfl := Option.some.inj (hrefused.symm.trans hreason)
      exact List.mem_cons_self

/-- The main sequence refuses a test whose runner is unusable, as far as it comes: nothing can cut
it between the two. -/
theorem MainCourse.refused_mem {reason : RunError}
    (h : MainCourse ctx budget limit (preparation ctx answer stop budget) now checkedOut taken last)
    (hreason : refusalAfter (preparation ctx answer stop budget ++ taken) = some reason) :
    .refused reason ∈ taken := by
  cases h with
  | complete hpath =>
    cases hpath with
    | cons _ hpath =>
      have hkept := hpath.refusalAfter_eq (by decide)
      rw [← List.append_cons, hreason] at hkept
      exact List.mem_cons_of_mem _ (hpath.refused_mem hkept.symm)
  | @cut early late stage taken time call _ hsequence hpath hcuts =>
    have hbefore : refusalAfter (preparation ctx answer stop budget ++ taken) = some reason := by
      rw [← List.append_assoc, refusalAfter_snoc] at hreason
      exact (Option.or_none).symm.trans hreason
    cases hpath with
    | nil => cases hbefore
    | @cons _ _ _ rest _ _ _ _ _ hpath =>
      obtain ⟨rfl, hlater⟩ := createRunner_not_mem hsequence
      have hkept := hpath.refusalAfter_eq hlater
      rw [← List.append_cons, hbefore] at hkept
      cases rest with
      | nil =>
        -- The test is in flight, so its runner is usable.
        obtain ⟨rfl, -⟩ := List.cons.inj (List.cons.inj hsequence).2
        rw [refusalAfter_of_runTest hcuts.hcall] at hbefore
        cases hbefore
      | cons next rest =>
        obtain ⟨rfl, -⟩ := List.cons.inj (List.cons.inj hsequence).2
        exact List.mem_append_left _ (List.mem_cons_of_mem _ (hpath.refused_mem hkept.symm))
  | noWorkspace => cases hreason

theorem FinalCourse.refused_mem {reason : RunError} (h : FinalCourse ctx budget limit
    (preparation ctx answer stop budget) now checkedOut steps swept last)
    (hreason : refusalAfter steps = some reason) : .refused reason ∈ steps := by
  cases h with
  | intro hmain _ _ => exact List.mem_append_right _ (hmain.refused_mem hreason)

end Courses

/-! ## The branch -/

section Courses

variable {plan : BranchPlan} {policy : SelectorPolicy} {limit : Option Nat} {steps : List StageStep}
  {swept : RunResult Swept} {last : Nat}

theorem Course.aimed (h : Course plan policy limit steps swept last) :
    Aimed (notesOf steps swept) := by
  cases h with
  | unresolved => exact .nil
  | noCheckout => exact aimed_checkout
  | noBudget => exact aimed_checkout
  | finalized _ _ _ hfinal => exact hfinal.aimed

theorem Course.runner_eq (h : Course plan policy limit steps swept last) :
    (outcomeOf plan steps swept last).runner = runnerOf (notesOf steps swept) := by
  cases h with
  | unresolved | noCheckout | noBudget => rfl
  | finalized _ _ _ hfinal => exact hfinal.runnerOf_notes.symm

/-- Where the runner is unusable a failed test is recorded, and the branch does not pass. -/
theorem Course.refused (h : Course plan policy limit steps swept last)
    (hrefusal : (notesOf steps swept).any (·.isRefusal) = true) :
    (outcomeOf plan steps swept last).status ≠ .passed ∧
      ∃ r ∈ (outcomeOf plan steps swept last).stages, r.stage = .runTest ∧ r.status = .failed := by
  have hrecord : ∃ r ∈ (outcomeOf plan steps swept last).stages,
      r.stage = .runTest ∧ r.status = .failed := by
    cases h with
    | unresolved | noCheckout | noBudget => cases hrefusal
    | @finalized _ _ _ _ _ swept _ _ _ _ hfinal =>
      rw [hfinal.any_isRefusal hfinal.fits] at hrefusal
      obtain ⟨reason, hreason⟩ := Option.isSome_iff_exists.1 hrefusal
      have hstep := hfinal.refused_mem hreason
      exact ⟨_, List.mem_append_left _ (List.mem_map_of_mem hstep), rfl, rfl⟩
  refine ⟨?_, hrecord⟩
  obtain ⟨r, hr, -, hfailed⟩ := hrecord
  rw [h.recorded.status]
  split
  · exact nofun
  · rw [if_pos ⟨r, hr, .inl hfailed⟩]
    exact nofun

end Courses

theorem StopsIn.aimed {call : CallNote} {notes whole : List Note} (h : StopsIn call notes whole)
    (hwhole : Aimed whole) : Aimed notes := by
  cases h with
  | called h => exact hwhole.of_prefix h
  | dropped h =>
    rw [List.append_cons]
    exact (hwhole.of_prefix h).snoc (fun n hn => by cases hn) fun h => by cases h

theorem isFatal_of_parseRunnerAddress {given : String} {e : RunError}
    (h : parseRunnerAddress given = .error e) : e.isFatal = true := by
  unfold parseRunnerAddress at h
  split at h
  · cases h
  · cases h
    rfl

/-- An address that is not recorded as it should be makes the runner unusable. -/
theorem AddressFile.isFatal_of_read {path : String} {files : FileTree} {cwd : List String}
    {e : RunError} (h : read path files cwd = .error e) : e.isFatal = true := by
  unfold read at h
  split at h
  · unfold parse at h
    dsimp only at h
    split at h
    · cases h
      rfl
    · exact isFatal_of_parseRunnerAddress h
  · cases h
    rfl

namespace BranchPlan

variable {ω : Type} (plan : BranchPlan) (c : Collaborators ω) (policy : SelectorPolicy)
  (limit : Option Nat) (world : ω)

theorem aimed_notes : Aimed (plan.notes c policy limit world) := by
  cases plan.ends c policy limit world with
  | follows h =>
    rw [h.notes]
    exact h.course.aimed
  | stops course _ stops => exact stops.aimed course.aimed
  | lost _ _ notes _ =>
    refine .of_headsFor fun note hnote => ?_
    rcases List.mem_cons.1 (notes hnote) with rfl | hnote
    · exact Note.headsFor_called nofun rfl
    · obtain rfl := List.mem_singleton.1 hnote
      exact ⟨rfl, fun n hn => by cases hn⟩

/-- **A branch has one target**, wherever it is cut and however it ends: its runner, if the creation
of one came back with an address, and otherwise this host. If the creation failed fatally, the test
is not run anywhere: it is recorded as failed, and the branch does not pass. An address that is not
recorded as it should be is such a failure. -/
theorem one_target :
    ∃ runner : Option Network.Address,
      (∀ address, runner = some address ↔
        ∃ time, .returned .createRunner
          (.ok (some address)) time ∈ plan.notes c policy limit world) ∧
      (∀ n, .called n ∈ plan.notes c policy limit world →
        n.target = if n.call.takesTarget then some (targetOf runner) else none) ∧
      (∀ o, (plan.runWithin c policy limit world).ending = .done o → o.runner = runner) ∧
      (∀ e time, .returned .createRunner (.error e) time ∈ plan.notes c policy limit world →
        e.isFatal = true →
        .runTest ∉ callsOf (plan.notes c policy limit world) ∧
          ((plan.runWithin c policy limit world).outcome plan.axis).status ≠ .passed ∧
          ((plan.runWithin c policy limit world).ending ≠ .broken →
            ∃ o, (plan.runWithin c policy limit world).ending = .done o ∧
              ∃ r ∈ o.stages, r.stage = .runTest ∧ r.status = .failed)) ∧
      ∀ path files cwd e, AddressFile.read path files cwd = .error e → e.isFatal = true := by
  have haimed := plan.aimed_notes c policy limit world
  refine ⟨runnerOf (plan.notes c policy limit world), fun _ => haimed.runnerOf_eq_some_iff,
    fun _ => haimed.target_eq, fun o hdone => ?_, fun e time hnote hfatal => ?_,
    fun _ _ _ _ => AddressFile.isFatal_of_read⟩
  · cases plan.ends c policy limit world with
    | follows h =>
      rw [h.ending] at hdone
      obtain rfl := Ending.done.inj hdone
      rw [h.notes, h.course.runner_eq]
    | stops _ hbroken =>
      rw [hbroken] at hdone
      cases hdone
    | lost _ hending => exact absurd hdone (hending o)
  · have hrefusal : (plan.notes c policy limit world).any (·.isRefusal) = true :=
      List.any_eq_true.2 ⟨_, hnote, hfatal⟩
    refine ⟨haimed.not_tested hrefusal, ?_⟩
    cases plan.ends c policy limit world with
    | follows h =>
      rw [h.notes] at hrefusal
      obtain ⟨hstatus, hrecord⟩ := h.course.refused hrefusal
      rw [Ended.outcome, h.ending]
      exact ⟨hstatus, fun _ => ⟨_, rfl, hrecord⟩⟩
    | stops _ hbroken =>
      rw [Ended.outcome, hbroken]
      exact ⟨nofun, fun h => absurd rfl h⟩
    | lost _ _ hnotes =>
      have hmem := hnotes hnote
      simp at hmem

theorem one_target_unusableRunner :
    .returned .createRunner (.error (.notAnAddress "10.0.0")) 0 ∈
        hourPlan.notes (Rehearsal.collaborators unusableRunner) .firstMatch none [] ∧
      .runTest ∉ callsOf
        (hourPlan.notes (Rehearsal.collaborators unusableRunner) .firstMatch none []) ∧
      ∃ o,
        (hourPlan.runWithin (Rehearsal.collaborators unusableRunner) .firstMatch none []).ending =
          .done o ∧
        ∃ r ∈ o.stages, r.stage = .runTest ∧ r.status = .failed := by
  have hnote : Note.returned .createRunner (.error (.notAnAddress "10.0.0")) 0 ∈
      hourPlan.notes (Rehearsal.collaborators unusableRunner) .firstMatch none [] :=
    List.mem_of_getElem? (i := 3) rfl
  obtain ⟨runner, -, -, -, hrefused, -⟩ :=
    one_target hourPlan (Rehearsal.collaborators unusableRunner) .firstMatch none []
  obtain ⟨huntested, -, hrecord⟩ := hrefused _ _ hnote rfl
  exact ⟨hnote, huntested, hrecord nofun⟩

end BranchPlan

end Stagehand
