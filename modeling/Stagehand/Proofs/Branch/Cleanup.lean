import Mathlib.Data.List.Basic
import Stagehand.Proofs.Branch.CallOrder
import Stagehand.Proofs.Branch.FanOut
import Stagehand.Proofs.Branch.Observing
import Stagehand.Proofs.Branch.Records

/-!
# Runners that are left behind

A runner that was asked for is cleaned up: by the main sequence, or by the sweep if the branch limit
cut the main sequence before that. Only a breakdown prevents it. Nothing is done after it, so if a
call breaks down that comes before the cleanup, the runner stays where it is, though the branch is
told to have failed.

Main result: `BranchPlan.cleaned_iff`, which breakdowns these are.
-/

namespace Stagehand

open Rehearsal (Call CallNote)

/-- The stages of the main sequence that come before the cleanup. -/
def uncleanStages : List Stage := [.createRunner, .runTest, .collectLogs]

/-- The calls of the main sequence that come before the cleanup. -/
def uncleanCalls : List Call := [.createRunner, .runTest, .collectLogs]

/-- The call that came last comes before the cleanup: it is one of the main sequence, or the
archive, if the branch limit had cut one of those. -/
def StopsUnclean (notes : List Note) : Prop :=
  ∃ call, (callsOf notes).getLast? = some call ∧
    (call ∈ uncleanCalls ∨ call = .copyArtifacts ∧ ∃ cut ∈ uncleanCalls, .dropped cut ∈ notes)

/-! ## The main sequence -/

section Courses

variable {ctx : BranchContext} {budget : TimeBudget} {deadline : Option Nat} {limit : Nat}
  {checkedOut : Bool} {before steps taken : List StageStep} {now stop last : Nat}
  {answer : RunResult Unit} {swept : Swept}

theorem Path.exists_append {stages stages' : List Stage}
    (h : Path ctx budget deadline before now (stages ++ stages') taken last) :
    ∃ first time second, taken = first ++ second ∧
      Path ctx budget deadline before now stages first time ∧
      Path ctx budget deadline (before ++ first) time stages' second last := by
  induction stages generalizing before now taken with
  | nil => exact ⟨[], now, taken, rfl, .nil, by rwa [List.append_nil]⟩
  | cons stage stages ih =>
    cases h with
    | @cons _ _ _ _ step _ _ _ htakes hrest =>
      obtain ⟨first, time, second, rfl, hfirst, hsecond⟩ := ih hrest
      exact ⟨step :: first, time, second, rfl, .cons htakes hfirst, by rwa [List.append_cons]⟩

theorem Path.callsOf_sublist {stages : List Stage}
    (h : Path ctx budget deadline before now stages taken last) :
    (callsOf (taken.flatMap (·.notes))).Sublist (stages.filterMap (·.call?)) := by
  rw [← h.map_stage]
  exact callsOf_steps_sublist h.fits

theorem mainSequence_split {early late : List Stage} {stage : Stage}
    (h : mainSequence = early ++ stage :: late) :
    early ++ [stage] <+: uncleanStages ∨
      ∃ ended, early = uncleanStages ++ ended ∧
      ended ++ stage :: late = [.cleanResources, .sendEmail] := by
  have hparts : uncleanStages ++ [.cleanResources, .sendEmail] = early ++ stage :: late := h
  obtain ⟨ended, hearly, hlate⟩ | ⟨rest, hearly, hlate⟩ := List.append_eq_append_iff.1 hparts
  · exact .inr ⟨ended, hearly, hlate.symm⟩
  · cases rest with
    | nil =>
      rw [List.append_nil] at hearly
      exact .inr ⟨[], by rw [hearly, List.append_nil], hlate⟩
    | cons first rest =>
      obtain ⟨rfl, -⟩ := List.cons.inj hlate
      exact .inl ⟨rest, by rw [hearly, List.append_assoc]; rfl⟩

/-- A main sequence that was to create a runner has called the cleanup, or was cut before that. -/
inductive MainCleanup (notes : List Note) : Prop
  | called {before after : List Call} (calls : callsOf notes = before ++ .cleanResources :: after)
      (before_subset : before ⊆ uncleanCalls) (after_subset : after ⊆ [.sendEmail])
      (kept : ∀ call ∈ uncleanCalls, .dropped call ∉ notes)
  | cut (calls : callsOf notes ⊆ uncleanCalls)
      (dropped : ∃ call ∈ uncleanCalls, .dropped call ∈ notes)

theorem Path.callsOf_uncleanStages {stages : List Stage}
    (h : Path ctx budget deadline before now stages taken last)
    (hstages : stages <+: uncleanStages) :
    callsOf (taken.flatMap (·.notes)) ⊆ uncleanCalls :=
  (h.callsOf_sublist.trans (hstages.sublist.filterMap _)).subset

theorem call_of_terminal {stages : List Stage} (hstages : stages ⊆ [.cleanResources, .sendEmail]) :
    ∀ stage ∈ stages, ∀ steps now,
      (callAfter ctx budget steps now stage).map (·.call) = stage.call? := by
  intro stage hstage steps now
  have hmem := hstages hstage
  simp only [List.mem_cons, List.not_mem_nil, or_false] at hmem
  obtain rfl | rfl := hmem <;> rfl

/-- A path that begins before the cleanup and ends with it, or after it, has called it. -/
theorem Path.callsOf_of_terminal {ended : List Stage}
    (h : Path ctx budget deadline before now (uncleanStages ++ ended) taken last)
    (hended : ended ⊆ [.cleanResources, .sendEmail]) :
    ∃ early ⊆ uncleanCalls, callsOf (taken.flatMap (·.notes)) =
        early ++ ended.filterMap (·.call?) := by
  obtain ⟨first, time, second, rfl, hfirst, hsecond⟩ := h.exists_append
  refine ⟨_, hfirst.callsOf_uncleanStages List.prefix_rfl, ?_⟩
  rw [List.flatMap_append, callsOf_append, hsecond.callsOf_of_due (call_of_terminal hended)]

theorem notes_cut (taken : List StageStep) (stage : Stage) (call : CallNote) (stop : Nat) :
    (taken ++ [StageStep.cut stage call stop]).flatMap (·.notes) =
      taken.flatMap (·.notes) ++ [.called call, .dropped call.call] := List.flatMap_append

/-- The limit passes before the cleanup. -/
theorem Path.cleanup_of_cut_early {early : List Stage} {stage : Stage} {call : CallNote}
    (h : Path ctx budget deadline before now early taken last)
    (hearly : early ++ [stage] <+: uncleanStages) (hcall : stage.call? = some call.call) :
    MainCleanup ((taken ++ [StageStep.cut stage call stop]).flatMap (·.notes)) := by
  have hmem : call.call ∈ uncleanCalls :=
    List.mem_filterMap.2
      ⟨stage, hearly.subset (List.mem_append_right early List.mem_cons_self), hcall⟩
  rw [notes_cut]
  refine .cut ?_
    ⟨call.call, hmem, List.mem_append_right _ (List.mem_cons_of_mem _ List.mem_cons_self)⟩
  rw [callsOf_append]
  refine List.append_subset.2 ⟨?_, List.cons_subset.2 ⟨hmem, List.nil_subset _⟩⟩
  exact h.callsOf_uncleanStages ((List.prefix_append early [stage]).trans hearly)

/-- The limit passes in a terminal stage, and the cleanup is the first of these. -/
theorem Path.cleanup_of_cut_late {ended late : List Stage} {stage : Stage} {call : CallNote}
    (h : Path ctx budget deadline before now (uncleanStages ++ ended) taken last)
    (hended : ended ++ stage :: late = [.cleanResources, .sendEmail])
    (hcall : stage.call? = some call.call) :
    MainCleanup ((taken ++ [StageStep.cut stage call stop]).flatMap (·.notes)) := by
  obtain ⟨early, hearly, hcalls⟩ := h.callsOf_of_terminal (hended ▸ List.subset_append_left _ _)
  obtain ⟨after, hafter, hlate⟩ : ∃ after ⊆ [Call.sendEmail],
      (ended ++ [stage]).filterMap (·.call?) = .cleanResources :: after := by
    -- There are two terminal stages, so the cut comes in the first or in the second.
    rcases ended with _ | ⟨_, _ | ⟨_, ended⟩⟩
    · obtain ⟨rfl, -⟩ := List.cons.inj hended
      exact ⟨[], List.nil_subset _, rfl⟩
    · obtain ⟨rfl, hrest⟩ := List.cons.inj hended
      obtain ⟨rfl, -⟩ := List.cons.inj hrest
      exact ⟨[.sendEmail], List.Subset.refl _, rfl⟩
    · simp at hended
  rw [List.filterMap_append, List.filterMap_cons, hcall, List.filterMap_nil] at hlate
  rw [notes_cut]
  refine .called ?_ hearly hafter fun cut hcut hdropped => ?_
  · rw [callsOf_append, hcalls, List.append_assoc, ← hlate]
    rfl
  · rw [← mem_dropsOf, dropsOf_append, h.dropsOf_notes] at hdropped
    have hsame : cut = call.call := by simpa [dropsOf, Note.dropped?] using hdropped
    have hstage : stage ∈ [Stage.cleanResources, .sendEmail] :=
      hended ▸ List.mem_append_right _ List.mem_cons_self
    rw [hsame] at hcut
    simp only [List.mem_cons, List.not_mem_nil, or_false] at hstage
    obtain rfl | rfl := hstage <;> rw [← Option.some.inj hcall] at hcut <;>
      exact absurd hcut (by decide)

theorem MainCourse.cleanup (h : MainCourse ctx budget limit before now checkedOut taken last)
    (hcreated : .createRunner ∈ callsOf (taken.flatMap (·.notes))) :
    MainCleanup (taken.flatMap (·.notes)) := by
  cases h with
  | complete hpath =>
    change Path _ _ _ _ _ (uncleanStages ++ [.cleanResources, .sendEmail]) _ _ at hpath
    obtain ⟨early, hearly, hcalls⟩ := hpath.callsOf_of_terminal (List.Subset.refl _)
    refine .called hcalls hearly (List.Subset.refl _) fun call _ hdropped => ?_
    have hnone := mem_dropsOf.2 hdropped
    rw [hpath.dropsOf_notes] at hnone
    cases hnone
  | cut hsequence hpath hcuts =>
    have hcall := call?_of_callAfter hcuts.hcall
    obtain hearly | ⟨ended, rfl, hended⟩ := mainSequence_split hsequence
    · exact hpath.cleanup_of_cut_early hearly hcall
    · exact hpath.cleanup_of_cut_late hended hcall
  | noWorkspace => cases hcreated

/-! ## Finalized branches -/

/-- What is missing begins with the cleanup, unless that is complete. -/
theorem Ledger.missing_of_unclean {l : Ledger} (h : l.isComplete .cleanResources = false) :
    ∃ rest ⊆ [Call.sendEmail], l.missing.map (·.call) = .cleanResources :: rest := by
  obtain ⟨cleaned, mailed⟩ := l
  obtain rfl : cleaned = false := h
  cases mailed with
  | true => exact ⟨[], List.nil_subset _, rfl⟩
  | false => exact ⟨[.sendEmail], List.Subset.refl _, rfl⟩

theorem Ledger.missing_subset (l : Ledger) :
    l.missing.map (·.call) ⊆ [.cleanResources, .sendEmail] := by
  obtain ⟨cleaned, mailed⟩ := l
  cases cleaned <;> cases mailed <;> decide

theorem isComplete_of_unclean (hfits : ∀ step ∈ steps, step.Fits)
    (hcalls : callsOf (steps.flatMap (·.notes)) ⊆ .checkout :: uncleanCalls) :
    (ledgerAfter steps).isComplete .cleanResources = false := by
  rw [Bool.eq_false_iff, Ne, isComplete_ledgerAfter hfits]
  intro hfinished
  exact absurd (hcalls (finishesOf_steps_subset _ hfinished)) (by decide)

/-- The calls of a finalized branch that was to create a runner, parted by its first cleanup. The
archive comes first exactly if the branch limit passed before the cleanup. -/
theorem FinalCourse.cleanup
    (h : FinalCourse ctx budget limit
      (preparation ctx answer stop budget) now checkedOut steps swept last)
    (hcreated : .createRunner ∈ callsOf (notesOf steps (.ok swept))) :
    ∃ before after,
      callsOf (notesOf steps (.ok swept)) = .checkout :: before ++ .cleanResources :: after ∧
      before ⊆ .copyArtifacts :: uncleanCalls ∧
      after ⊆ [.copyArtifacts, .cleanResources, .sendEmail] ∧
      (.copyArtifacts ∈ before ↔ ∃ call ∈ uncleanCalls,
        .dropped call ∈ steps.flatMap (·.notes)) := by
  have hswept := h.callsOf_swept
  have hfits := h.fits
  cases h with
  | @intro taken time _ _ hmain _ _ =>
    have hnotes : (preparation ctx answer stop budget ++ taken).flatMap (·.notes) =
        (checkoutAttempt ctx answer stop).notes ++ taken.flatMap (·.notes) := List.flatMap_append
    have hcalls : callsOf (notesOf (preparation ctx answer stop budget ++ taken) (.ok swept)) =
        .checkout :: callsOf (taken.flatMap (·.notes)) ++ .copyArtifacts ::
          (ledgerAfter (preparation ctx answer stop budget ++ taken)).missing.map (·.call) := by
      rw [notesOf, callsOf_append, hswept, hnotes, callsOf_append, callsOf_attempt]
      rfl
    have htaken : .createRunner ∈ callsOf (taken.flatMap (·.notes)) := by
      rw [hcalls] at hcreated
      have hlater : Call.createRunner ∉
          (ledgerAfter (preparation ctx answer stop budget ++ taken)).missing.map (·.call) :=
        fun hmem => absurd (Ledger.missing_subset _ hmem) (by decide)
      simpa [hlater] using hcreated
    have hdropped : ∀ call, .dropped call ∈ (preparation ctx answer stop budget ++ taken).flatMap
        (·.notes) ↔ .dropped call ∈ taken.flatMap (·.notes) := by
      intro call
      rw [← mem_dropsOf, hnotes, dropsOf_append, dropsOf_attempt, List.nil_append, mem_dropsOf]
    simp only [hdropped, hcalls]
    -- Either the main sequence calls the cleanup, or it was cut before and leaves it to the sweep.
    cases hmain.cleanup htaken with
    | @called before after calls hbefore hafter hkept =>
      refine ⟨before, after ++ .copyArtifacts ::
        (ledgerAfter (preparation ctx answer stop budget ++ taken)).missing.map (·.call), ?_,
        List.subset_cons_of_subset _ hbefore, ?_, ?_⟩
      · rw [calls]
        simp
      · refine List.append_subset.2
          ⟨List.Subset.trans hafter (by decide), List.cons_subset.2 ⟨by decide, ?_⟩⟩
        exact List.Subset.trans (Ledger.missing_subset _) (by decide)
      · refine iff_of_false (fun hcopy => absurd (hbefore hcopy) (by decide)) ?_
        rintro ⟨call, hcall, hdropped⟩
        exact hkept call hcall hdropped
    | cut calls hcut =>
      have hearly : callsOf ((preparation ctx answer stop budget ++ taken).flatMap (·.notes)) ⊆
          .checkout :: uncleanCalls := by
        rw [hnotes, callsOf_append, callsOf_attempt]
        exact List.cons_subset_cons _ calls
      have hunclean := isComplete_of_unclean hfits hearly
      obtain ⟨rest, hrest, hlate⟩ := Ledger.missing_of_unclean hunclean
      refine ⟨callsOf (taken.flatMap (·.notes)) ++ [.copyArtifacts], rest, ?_, ?_, ?_, ?_⟩
      · rw [hlate]
        simp
      · refine List.append_subset.2 ⟨List.subset_cons_of_subset _ calls, ?_⟩
        exact List.cons_subset.2 ⟨List.mem_cons_self, List.nil_subset _⟩
      · exact List.Subset.trans hrest (by decide)
      · exact iff_of_true (List.mem_append_right _ List.mem_cons_self) hcut

/-! ## Breakdowns -/

/-- What begins a list with a mark in it stops before the mark, or goes beyond it. -/
theorem prefix_append_cons {α : Type} {l before after : List α} {x : α}
    (h : l <+: before ++ x :: after) :
    l <+: before ∨ ∃ rest, l = before ++ x :: rest ∧ rest <+: after := by
  obtain ⟨rest, hrest⟩ := h
  obtain ⟨left, hbefore, -⟩ | ⟨beyond, rfl, hbeyond⟩ := List.append_eq_append_iff.1 hrest
  · exact .inl ⟨left, hbefore.symm⟩
  · cases beyond with
    | nil => exact .inl (by simp)
    | cons first beyond =>
      obtain ⟨rfl, hafter⟩ := List.cons.inj hbeyond
      exact .inr ⟨beyond, rfl, rest, hafter.symm⟩

/-- The archive is called once, and the whole main sequence comes before it. -/
theorem FinalCourse.eq_of_archive {call : CallNote} {early : List Note}
    (h : FinalCourse ctx budget limit
      (preparation ctx answer stop budget) now checkedOut steps swept last)
    (hstart : early ++ [.called call] <+: notesOf steps (.ok swept))
    (hcall : call.call = .copyArtifacts) : early = steps.flatMap (·.notes) := by
  have hmem : ∀ {notes : List Note}, .called call ∈ notes → .copyArtifacts ∈ callsOf notes :=
    fun hcalled => List.mem_filterMap.2 ⟨_, hcalled, congrArg some hcall⟩
  -- The archive is called neither before the sweep nor again after it has begun.
  have hmain : .copyArtifacts ∉ callsOf (steps.flatMap (·.notes)) :=
    fun hmem => absurd (h.callsOf_sublist.subset hmem) (by decide)
  have hlater : .copyArtifacts ∉ callsOf swept.laterNotes := by
    rw [h.laterNotes.1, List.mem_map]
    rintro ⟨stage, -, hstage⟩
    cases stage <;> cases hstage
  have hparts : early ++ [.called call] <+:
      steps.flatMap (·.notes) ++ .called swept.archiving.call :: swept.laterNotes := hstart
  obtain hbefore | ⟨rest, heq, hrest⟩ := prefix_append_cons hparts
  · exact absurd (hmem (hbefore.subset (List.mem_append_right _ List.mem_cons_self))) hmain
  · obtain rfl | ⟨rest, n, rfl⟩ := List.eq_nil_or_concat rest
    · exact (List.append_inj' heq rfl).1
    · rw [List.concat_eq_append, ← List.cons_append, ← List.append_assoc] at heq
      obtain ⟨-, hn⟩ := List.append_inj' heq rfl
      obtain rfl := List.cons.inj hn |>.1
      refine absurd (hmem (hrest.subset ?_)) hlater
      rw [List.concat_eq_append]
      exact List.mem_append_right _ List.mem_cons_self

/-- A branch that breaks down in its archive has dropped what its main sequence dropped. -/
theorem FinalCourse.dropped_iff_of_archive {call : CallNote} {notes : List Note}
    (h : FinalCourse ctx budget limit
      (preparation ctx answer stop budget) now checkedOut steps swept last)
    (hstops : StopsIn call notes (notesOf steps (.ok swept))) (hcall : call.call = .copyArtifacts)
    {cut : Call} (hcut : cut ∈ uncleanCalls) :
    .dropped cut ∈ notes ↔ .dropped cut ∈ steps.flatMap (·.notes) := by
  have hne : cut ≠ .copyArtifacts := by
    rintro rfl
    exact absurd hcut (by decide)
  cases hstops with
  | called hstart =>
    rw [h.eq_of_archive hstart hcall]
    simp
  | dropped hstart =>
    rw [h.eq_of_archive hstart hcall, hcall]
    simp [hne]

/-- Where a branch stops, told by the call that it stops in. -/
theorem FinalCourse.stopsUnclean_iff {call : CallNote} {notes : List Note} {calls : List Call}
    (h : FinalCourse ctx budget limit
      (preparation ctx answer stop budget) now checkedOut steps swept last)
    (hstops : StopsIn call notes (notesOf steps (.ok swept)))
    (hnotes : callsOf notes = calls ++ [call.call]) :
    StopsUnclean notes ↔ call.call ∈ uncleanCalls ∨
      call.call = .copyArtifacts ∧ ∃ cut ∈ uncleanCalls, .dropped cut ∈ steps.flatMap
        (·.notes) := by
  have hlast : (callsOf notes).getLast? = some call.call := by rw [hnotes, List.getLast?_concat]
  constructor
  · rintro ⟨final, hfinal, hends⟩
    obtain rfl : final = call.call := Option.some.inj (hfinal.symm.trans hlast)
    rcases hends with hmem | ⟨hcopy, cut, hcut, hdropped⟩
    · exact .inl hmem
    · exact .inr ⟨hcopy, cut, hcut, (h.dropped_iff_of_archive hstops hcopy hcut).1 hdropped⟩
  · intro hends
    rcases hends with hmem | ⟨hcopy, cut, hcut, hdropped⟩
    · exact ⟨_, hlast, .inl hmem⟩
    · have hkept := (h.dropped_iff_of_archive hstops hcopy hcut).2 hdropped
      exact ⟨_, hlast, .inr ⟨hcopy, cut, hcut, hkept⟩⟩

/-- A branch that breaks down after the call for a runner has called the cleanup by then, unless it
stops before that. -/
theorem FinalCourse.cleaned_iff_of_stops {call : CallNote} {notes : List Note}
    (h : FinalCourse ctx budget limit
      (preparation ctx answer stop budget) now checkedOut steps swept last)
    (hstops : StopsIn call notes (notesOf steps (.ok swept)))
    (hcreated : .createRunner ∈ callsOf notes) :
    .cleanResources ∈ callsOf notes ↔ ¬ StopsUnclean notes := by
  obtain ⟨before, after, hcalls, hbefore, hafter, harchive⟩ :=
    h.cleanup (hstops.callsOf_prefix.subset hcreated)
  obtain ⟨calls, hnotes⟩ := hstops.callsOf_eq
  have hunclean := h.stopsUnclean_iff hstops hnotes
  rw [← harchive] at hunclean
  have hstart := hstops.callsOf_prefix
  rw [hcalls, hnotes] at hstart
  rw [hunclean]
  rw [hnotes] at hcreated ⊢
  obtain hearly | ⟨rest, heq, hrest⟩ := prefix_append_cons hstart
  · -- It stops before the cleanup.
    have hnot : .cleanResources ∉ calls ++ [call.call] := fun hmem =>
      absurd (List.cons_subset_cons .checkout hbefore (hearly.subset hmem)) (by decide)
    refine iff_of_false hnot (not_not.2 ?_)
    cases calls with
    | nil =>
      rw [← List.mem_singleton.1 hcreated]
      exact .inl List.mem_cons_self
    | cons first calls =>
      obtain ⟨-, hbegins⟩ := List.cons_prefix_cons.1 hearly
      have hmem : call.call ∈ before := hbegins.subset (List.mem_append_right _ List.mem_cons_self)
      obtain hcopy | hcall := List.mem_cons.1 (hbefore hmem)
      · exact .inr ⟨hcopy, hcopy ▸ hmem⟩
      · exact .inl hcall
  · -- It goes beyond the cleanup.
    refine iff_of_true (heq ▸ List.mem_append_right _ List.mem_cons_self) ?_
    have hlast : call.call ∈ .cleanResources :: after := by
      have hends := congrArg List.getLast? heq
      rw [List.getLast?_concat, List.getLast?_append_cons] at hends
      exact List.cons_subset_cons _ hrest.subset (List.mem_of_getLast? hends.symm)
    rintro (hcall | ⟨hcopy, hcopied⟩)
    · have hmem := List.cons_subset_cons .cleanResources hafter hlast
      have hnone : ∀ call ∈ uncleanCalls,
          call ∉ [Call.cleanResources, .copyArtifacts, .cleanResources, .sendEmail] := by decide
      exact hnone _ hcall hmem
    · rw [hcopy] at hlast
      have honce : (callsOf (notesOf steps (.ok swept))).count .copyArtifacts ≤ 1 :=
        h.count_callsOf_le_one fun stage => by cases stage <;> decide
      have hfirst := List.count_pos_iff.2 hcopied
      have hagain := List.count_pos_iff.2 hlast
      rw [hcalls, List.count_append, List.count_cons] at honce
      omega

end Courses

/-- A course that calls for a runner is that of a finalized branch. -/
theorem Course.cleanup {plan : BranchPlan} {policy : SelectorPolicy} {limit : Option Nat}
    {steps : List StageStep} {swept : RunResult Swept} {last : Nat} {notes : List Note}
    (h : Course plan policy limit steps swept last) (hcreated : .createRunner ∈ callsOf notes)
    (hcalls : callsOf notes ⊆ callsOf (notesOf steps swept)) :
    .cleanResources ∈ callsOf (notesOf steps swept) ∧
    ∀ call, StopsIn call notes (notesOf steps swept) →
      (.cleanResources ∈ callsOf notes ↔ ¬ StopsUnclean notes) := by
  have hmem := hcalls hcreated
  have hne : Call.createRunner ∉ [Call.checkout] := by decide
  cases h with
  | unresolved => cases hmem
  | noCheckout => exact absurd hmem hne
  | noBudget => exact absurd hmem hne
  | finalized _ _ _ hfinal =>
    obtain ⟨before, after, hall, -⟩ := hfinal.cleanup hmem
    refine ⟨?_, fun call hstops => hfinal.cleaned_iff_of_stops hstops hcreated⟩
    rw [hall]
    exact List.mem_append_right _ List.mem_cons_self

/-- **A branch that called for a runner calls the cleanup**, whatever its collaborators do, unless
it breaks down before that. -/
theorem BranchPlan.cleaned_iff {ω : Type} (plan : BranchPlan) (c : Collaborators ω)
    (policy : SelectorPolicy) (limit : Option Nat) (world : ω)
    (hcreated : .createRunner ∈ callsOf (plan.notes c policy limit world)) :
    .cleanResources ∈ callsOf (plan.notes c policy limit world) ↔
      ¬ ((plan.runWithin c policy limit world).ending = .broken ∧
        StopsUnclean (plan.notes c policy limit world)) := by
  cases plan.ends c policy limit world with
  | follows h =>
    have hclean := (h.course.cleanup hcreated (h.notes ▸ List.Subset.refl _)).1
    refine iff_of_true (h.notes ▸ hclean) ?_
    rintro ⟨hbroken, -⟩
    rw [h.ending] at hbroken
    cases hbroken
  | stops hcourse hbroken hstops =>
    have hiff := (hcourse.cleanup hcreated hstops.callsOf_prefix.subset).2 _ hstops
    rw [hiff, and_iff_right hbroken]
  | lost _ _ _ hcalls =>
    rw [hcalls] at hcreated
    exact absurd (List.mem_singleton.1 hcreated) (by decide)

/-! ## Runs of several branches -/

namespace FanOut

variable {ω υ : Type}

/-- What a run of several branches leaves of its runners. `alone` is how each plan ends if it is run
alone. -/
structure CleansUp (alone : BranchPlan → Ending BranchOutcome) (plans : List BranchPlan)
    (r : FanOut (NotedApart ω)) : Prop where
  /-- Every axis value has one branch. -/
  axes : r.branches.map (·.1) = distinctNames [] (plans.map (·.axis))
  ending : ∀ b ∈ r.branches, ∃ p, plans.find? (·.axis == b.1) = some p ∧ b.2.ending = alone p
  entry : ∀ b ∈ r.branches, r.summary.branches.get? b.1 = some (b.2.outcome b.1)
  /-- By the time of its entry, a branch that called for a runner has called the cleanup, unless it
  broke down before that. -/
  cleaned : ∀ b ∈ r.branches, .createRunner ∈ callsOf (b.2.state.progress.world.notes b.1) →
    (.cleanResources ∈ callsOf (b.2.state.progress.world.notes b.1) ↔
      ¬ (b.2.ending = .broken ∧ StopsUnclean (b.2.state.progress.world.notes b.1)))

variable {c : Collaborators ω} {view : String → ω → υ} {policy : SelectorPolicy}
  {limit : Option Nat}
  {plans : List BranchPlan} {world : ω}

theorem cleansUp_gathered
    {answers : List (Option (Option (Ended (BranchState (NotedApart ω)) BranchOutcome)))}
    (h : List.Forall₂ (fun p r => ∃ answer, r = some answer ∧
      AnswersAs (NotedApart.viewed view)
        (fun p => p.runWithin c.observed policy limit { world }) p answer)
      (distinctPlans plans) answers)
    (hreturns : ∀ p ∈ distinctPlans plans,
      (p.runWithin c.observed policy limit { world }).ending ≠ .cut) :
    (gathered plans answers).CleansUp
        (fun p => (p.runWithin c policy limit world).ending) plans := by
  have herror : ∀ p o, (BranchPlan.runWithin p c.observed policy limit { world }).ending = .done o →
      ∀ text, o.error = some text → ∃ e : RunError, text = e.message :=
    fun p o ho => answers_runBranch c.observed policy limit p none 0 _ o ho
  have hrun := isRunOf_gathered h hreturns herror
  obtain ⟨haxes, hbranches⟩ := branches_gathered h
  -- Each branch has ended as its plan does alone, and has left the notes that it leaves alone.
  have halone : ∀ b ∈ (gathered plans answers).branches, ∃ p, plans.find? (·.axis == b.1) = some p ∧
      b.1 = p.axis ∧ b.2.ending = (p.runWithin c policy limit world).ending ∧
      b.2.state.progress.world.notes b.1 = p.notes c policy limit world := by
    intro b hb
    obtain ⟨p, hp, haxis, e, he, hmatches⟩ := hbranches b hb
    obtain rfl := Option.some.inj he
    obtain ⟨hending, hnotes⟩ := p.runWithin_observed c policy limit world
    refine ⟨p, haxis ▸ mem_distinctPlans.1 hp, haxis, hmatches.ending.trans hending, ?_⟩
    rw [haxis, ← hnotes]
    exact (Prod.mk.inj hmatches.state.progress.world).2
  constructor
  case axes => rw [haxes, map_axis_distinctPlans]
  case ending =>
    intro b hb
    obtain ⟨p, hfind, -, hending, -⟩ := halone b hb
    exact ⟨p, hfind, hending⟩
  case entry =>
    intro b hb
    obtain ⟨p, hfind, -, hending, -⟩ := halone b hb
    obtain ⟨o, hentry, hcases⟩ := hrun.entry b.1 p hfind
    rw [hentry, Ended.outcome, hending, ← (p.runWithin_observed c policy limit world).1]
    obtain ⟨hdone, -⟩ | ⟨hbroken, rfl⟩ := hcases
    · rw [hdone]
    · rw [hbroken]
  case cleaned =>
    intro b hb
    obtain ⟨p, -, -, hending, hnotes⟩ := halone b hb
    rw [hending, hnotes]
    exact p.cleaned_iff c policy limit world

/-- **Only a breakdown leaves a runner behind.** In whatever order the branches of a run go on, and
side by side as well, each that called for a runner has called the cleanup by the time of its entry,
unless it broke down before that. -/
theorem cleaned_unless_broken (hc : c.Separate view) (policy : SelectorPolicy) (limit : Option Nat)
    (plans : List BranchPlan) (world : ω)
    (hreturns : ∀ p ∈ distinctPlans plans, (p.runWithin c policy limit world).ending ≠ .cut) :
    ((Crowd.start { world } (tasks (runBranch c.observed policy limit) plans)).Ends fun answers =>
      (gathered plans answers).CleansUp
        (fun p => (p.runWithin c policy limit world).ending) plans) ∧
    ∃ r, ((activity (runBranch c.observed policy limit) plans).run { world }).ending = .done r ∧
      r.CleansUp (fun p => (p.runWithin c policy limit world).ending) plans := by
  have hobserved : ∀ p ∈ distinctPlans plans,
      (p.runWithin c.observed policy limit { world }).ending ≠ .cut := fun p hp => by
    rw [(p.runWithin_observed c policy limit world).1]
    exact hreturns p hp
  obtain ⟨hends, answers, hending, hall⟩ :=
    answers_as_alone (Collaborators.separate_observed hc) policy limit plans { world } hobserved
  exact ⟨hends.mono fun _ h => cleansUp_gathered h hobserved, _, hending,
    cleansUp_gathered hall hobserved⟩

theorem cleaned_unless_broken_breakingTest :
    (∀ p ∈ distinctPlans twoAxes,
      (p.runWithin (Rehearsal.collaborators breakingTest) .firstMatch none []).ending ≠ .cut) ∧
    ∃ r, ((activity (runBranch (Rehearsal.collaborators breakingTest).observed .firstMatch none)
        twoAxes).run { world := [] }).ending = .done r ∧
      r.CleansUp
        (fun p => (p.runWithin (Rehearsal.collaborators breakingTest) .firstMatch none []).ending)
        twoAxes :=
  ⟨breakingTest_returns, (cleaned_unless_broken (Rehearsal.separate_collaborators breakingTest)
    .firstMatch none twoAxes [] breakingTest_returns).2⟩

/-- The test of a branch breaks down, its runner has been called for, and the run has an entry for
it; but the cleanup was not called. -/
theorem uncleaned_breakingTest :
    ∃ r, ((activity (runBranch (Rehearsal.collaborators breakingTest).observed .firstMatch none)
        twoAxes).run { world := [] }).ending = .done r ∧
      ∃ b ∈ r.branches, b.1 = "i4i.xlarge" ∧
        r.summary.branches.get? b.1 = some (BranchOutcome.failed b.1 brokenText) ∧
        .createRunner ∈ callsOf (b.2.state.progress.world.notes b.1) ∧
        .cleanResources ∉ callsOf (b.2.state.progress.world.notes b.1) := by
  refine ⟨_, rfl, _, List.mem_cons_of_mem _ List.mem_cons_self, rfl, rfl, ?_⟩
  decide +kernel

end FanOut

end Stagehand
