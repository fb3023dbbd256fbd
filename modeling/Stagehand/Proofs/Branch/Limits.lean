import Stagehand.Proofs.Branch.Records
import Stagehand.Proofs.Branch.Wording
import Stagehand.Proofs.Budget

/-!
# The default branch limit never passes

Without a limit of its own, a branch gets the sum of all its allotments and some slack. Each of its
stages is held to one allotment, so the stages under the limit are over before it passes, however
long their calls would take and whether or not they break down.

The bound is shown twice: for the program itself, where time is added up along the stages
(`atMost_provisionedStages`), and for histories, where it rules out the course that is cut
(`MainCourse.not_cut`).

Main result: `BranchPlan.default_limit_never_passes`.
-/

namespace Stagehand

open Rehearsal (Call CallNote)
open Timed

variable {σ τ ω α β : Type}

/-! ## Bounded activities -/

/-- The activity takes so many milliseconds at the most, and only a deadline cuts it. -/
def Timed.AtMost (x : Timed σ α) (millis : Nat) : Prop :=
  ∀ deadline now s, meets now deadline →
    (x.runUnder deadline now s).time ≤ now + millis ∧
      ((x.runUnder deadline now s).ending = .cut → deadline ≠ none)

section AtMost

variable {m n : Nat}

theorem Timed.AtMost.mono {x : Timed σ α} (h : x.AtMost m) (hmn : m ≤ n) : x.AtMost n := by
  intro deadline now s hd
  obtain ⟨htime, hcut⟩ := h deadline now s hd
  exact ⟨by omega, hcut⟩

theorem atMost_pure (a : α) : (pure a : Timed σ α).AtMost 0 :=
  fun _ now _ _ => ⟨Nat.le_refl now, by rintro ⟨⟩⟩

theorem atMost_bind {x : Timed σ β} {f : β → Timed σ α} (hx : x.AtMost m)
    (hf : ∀ b, (f b).AtMost n) :
    (x >>= f).AtMost (m + n) := by
  intro deadline now s hd
  obtain ⟨htime, hcut⟩ := hx deadline now s hd
  have hmeets : ∀ b, (x.runUnder deadline now s).ending = .done b →
      meets (x.runUnder deadline now s).time deadline := fun b hb => meets_time_of_done hb hd
  rw [runUnder_bind]
  generalize x.runUnder deadline now s = e at htime hcut hmeets ⊢
  obtain ⟨b | _ | _, time, t⟩ := e
  · obtain ⟨hlater, hcut'⟩ := hf b deadline time t (hmeets b rfl)
    exact ⟨Nat.le_trans hlater (Nat.add_assoc now m n ▸ Nat.add_le_add_right htime n), hcut'⟩
  · exact ⟨Nat.le_trans htime (by omega), fun _ => hcut rfl⟩
  · exact ⟨Nat.le_trans htime (by omega), by rintro ⟨⟩⟩

theorem atMost_bind_of_instant {x : Timed σ β} {f : β → Timed σ α} (hx : x.AtMost 0)
    (hf : ∀ b, (f b).AtMost n) : (x >>= f).AtMost n :=
  (atMost_bind hx hf).mono (by omega)

theorem atMost_bind_instant {x : Timed σ β} {f : β → Timed σ α} (hx : x.AtMost m)
    (hf : ∀ b, (f b).AtMost 0) : (x >>= f).AtMost m :=
  (atMost_bind hx hf).mono (by omega)

theorem atMost_modify (f : σ → σ) : (Timed.modify f).AtMost 0 :=
  fun _ now _ _ => ⟨Nat.le_refl now, by rintro ⟨⟩⟩

theorem atMost_now : (Timed.now : Timed σ Nat).AtMost 0 :=
  fun _ now _ _ => ⟨Nat.le_refl now, by rintro ⟨⟩⟩

theorem atMost_get_bind {f : σ → Timed σ α} (hf : ∀ s, (f s).AtMost n) : (get >>= f).AtMost n :=
  fun deadline now s => hf s deadline now s

/-- A body that is given a limit takes no longer, whatever it does. -/
theorem atMost_within (millis : Nat) (x : Timed σ α) : (within millis x).AtMost millis := by
  intro deadline now s hd
  have hnow : meets now (some (nearer (now + millis) deadline)) :=
    meets_nearer.2 ⟨Nat.le_add_right _ _, hd⟩
  have hself : nearer (now + millis) deadline ≤ now + millis := by
    cases deadline with
    | none => exact Nat.le_refl _
    | some stop => exact Nat.min_le_left _ _
  -- Cut or not, the body is over by the nearer of the two deadlines.
  have htime : (x.runUnder (some (nearer (now + millis) deadline)) now s).time ≤ now + millis := by
    by_cases hcut : (x.runUnder (some (nearer (now + millis) deadline)) now s).ending = .cut
    · rw [time_of_cut hcut]
      exact hself
    · exact (meets_nearer.1 (meets_time_of_ne_cut hcut hnow)).1
  rw [runUnder_within _ _ _ _ _ hd]
  generalize x.runUnder (some (nearer (now + millis) deadline)) now s = e at htime ⊢
  obtain ⟨a | _ | _, time, t⟩ := e
  · exact ⟨htime, by rintro ⟨⟩⟩
  · simp only [limited]
    split
    · exact ⟨htime, by rintro ⟨⟩⟩
    · refine ⟨htime, ?_⟩
      rintro - rfl
      exact absurd rfl ‹¬ _›
  · exact ⟨htime, by rintro ⟨⟩⟩

/-- A limit that is longer than its body ever takes does not pass. -/
theorem within_of_atMost {x : Timed σ α} {limit : Nat} (h : x.AtMost m) (hm : m < limit) (now : Nat)
    (s : σ) :
    ((∃ a, ((within limit x).runUnder none now s).ending = .done (some a)) ∨
        ((within limit x).runUnder none now s).ending = .broken) ∧
      ((within limit x).runUnder none now s).time ≤ now + m := by
  have hnow : meets now (some (now + limit)) := decide_eq_true (Nat.le_add_right _ _)
  obtain ⟨htime, -⟩ := h (some (now + limit)) now s hnow
  have hcut : (x.runUnder (some (now + limit)) now s).ending ≠ .cut := by
    intro hcut
    rw [time_of_cut hcut] at htime
    omega
  have hrun : (within limit x).runUnder none now s =
      limited (now + limit) none (x.runUnder (some (now + limit)) now s) :=
    runUnder_within _ _ _ _ _ rfl
  rw [hrun]
  generalize x.runUnder (some (now + limit)) now s = e at htime hcut ⊢
  obtain ⟨a | _ | _, time, t⟩ := e
  · exact ⟨.inl ⟨a, rfl⟩, htime⟩
  · exact absurd rfl hcut
  · exact ⟨.inr rfl, htime⟩

theorem atMost_onPart {part : σ → τ} {setPart : τ → σ → σ} (hp : IsPart part setPart)
    {x : Timed τ α} (h : x.AtMost n) : (x.onPart part setPart).AtMost n := by
  intro deadline now s hd
  rw [runUnder_onPart hp]
  exact h deadline now (part s) hd

theorem atMost_bounded (step : String) (limit : Nat) (x : Timed σ (RunResult α)) :
    (bounded step limit x).AtMost (limit * 1000) := by
  refine atMost_bind_instant (atMost_within _ _) fun answer => ?_
  cases answer <;> exact atMost_pure _

end AtMost

/-! ## The stages of a branch -/

section Program

open BranchState

variable (c : Collaborators ω) (ctx : BranchContext) (budget : TimeBudget)

theorem atMost_onProgress {x : Timed (Progress ω) α} {n : Nat} (h : x.AtMost n) :
    (onProgress x).AtMost n :=
  atMost_onPart isPart_progress h

theorem atMost_tell (e : Event) : (tell (ω := ω) e).AtMost 0 := atMost_onProgress (atMost_modify _)

theorem atMost_record (axis : String) (r : StageRecord) : (record (ω := ω) axis r).AtMost 0 :=
  atMost_bind_of_instant (atMost_tell _) fun _ => atMost_modify _

theorem atMost_attempt (axis : String) (stage : Stage) {body : Timed (BranchState ω) (RunResult α)}
    {n : Nat} (h : body.AtMost n) : (attempt axis stage body).AtMost n := by
  refine atMost_bind_of_instant atMost_now fun started => ?_
  refine atMost_bind_of_instant (atMost_modify _) fun _ => ?_
  refine atMost_bind_of_instant (atMost_tell _) fun _ => atMost_bind_instant h fun result => ?_
  refine atMost_bind_of_instant (atMost_modify _) fun _ =>
    atMost_bind_of_instant atMost_now fun ended => ?_
  exact atMost_bind_of_instant (atMost_record _ _) fun _ => atMost_pure _

theorem atMost_attemptBounded (axis : String) (stage : Stage) (limit : Nat)
    (body : Timed ω (RunResult α)) : (attemptBounded axis stage limit body).AtMost (limit * 1000) :=
  atMost_attempt axis stage (atMost_bounded _ _ _)

theorem atMost_runnerStage :
    (runnerStage c ctx budget).AtMost (budget.limit .runnerProvision * 1000) := by
  rw [runnerStage]
  split
  · refine atMost_bind_instant (atMost_attemptBounded _ _ _ _) fun created => ?_
    cases created with
    | ok address => exact atMost_bind_of_instant (atMost_modify _) fun _ => atMost_pure _
    | error e =>
      dsimp only
      split
      · exact atMost_pure _
      · exact atMost_bind_of_instant (atMost_tell _) fun _ => atMost_pure _
  · exact (atMost_bind_of_instant (atMost_modify _) fun _ => atMost_pure _).mono (Nat.zero_le _)

theorem atMost_testStage (unusable : Option RunError) :
    (testStage c ctx budget unusable).AtMost (budget.limit .testRun * 1000) := by
  cases unusable with
  | some reason => exact (atMost_record _ _).mono (Nat.zero_le _)
  | none =>
    refine atMost_get_bind fun s => ?_
    exact atMost_bind_instant (atMost_attemptBounded _ _ _ _) fun _ => atMost_pure _

theorem atMost_logStage : (logStage c ctx budget).AtMost (budget.limit .logCollect * 1000) := by
  refine atMost_get_bind fun s => ?_
  exact atMost_bind_instant (atMost_attemptBounded _ _ _ _) fun _ => atMost_pure _

theorem atMost_runTerminal (target : Target) (build : BuildResult) (stage : TerminalStage) :
    (runTerminal c ctx budget target build stage).AtMost
        (budget.limit stage.allocation * 1000) := by
  refine atMost_bind_instant (atMost_onPart Progress.isPart_world (atMost_bounded _ _ _))
    fun result => ?_
  exact atMost_bind_of_instant (atMost_modify _) fun _ => atMost_pure _

theorem atMost_terminalStages (target : Target) (build : BuildResult)
    (stages : List TerminalStage) :
    (terminalStages c ctx budget target build stages).AtMost
      ((stages.map fun stage => budget.limit stage.allocation).sum * 1000) := by
  induction stages with
  | nil => exact (atMost_pure _).mono (Nat.zero_le _)
  | cons stage rest ih =>
    have hfirst := atMost_attempt ctx.axis stage.toStage
      (atMost_onProgress (atMost_runTerminal c ctx budget target build stage))
    refine (atMost_bind hfirst fun _ => ih).mono (Nat.le_of_eq ?_)
    rw [List.map_cons, List.sum_cons, Nat.add_mul]

/-- **The stages of a branch take no longer than all its limits together**, whatever
its collaborators do. -/
theorem atMost_provisionedStages :
    (provisionedStages c ctx budget).AtMost ((Allocation.all.map budget.limit).sum * 1000) := by
  refine (atMost_bind (atMost_runnerStage c ctx budget) fun unusable =>
    atMost_bind (atMost_testStage c ctx budget unusable) fun _ =>
    atMost_bind (atMost_logStage c ctx budget) fun _ =>
    atMost_get_bind fun s => atMost_terminalStages c ctx budget _ _ _).mono ?_
  simp only [Allocation.all, TerminalStage.order, TerminalStage.allocation,
    List.map_cons, List.map_nil, List.sum_cons, List.sum_nil]
  omega

variable {c ctx budget}

/-- **The main stages are over before the default limit of their branch**, which does
not cut them. -/
theorem runUnder_mainStages (hfits : budget.Fits) (checkedOut : Bool) (now : Nat)
    (s : BranchState ω) :
    ∃ e, (mainStages c ctx budget (budget.branchLimit * 1000) checkedOut).runUnder none now s = e ∧
      (e.ending = .done false ∨ e.ending = .broken) ∧ e.time < now + budget.branchLimit * 1000 := by
  have hsum := hfits.sum_limit_lt
  cases checkedOut with
  | false =>
    have hpos : now < now + budget.branchLimit * 1000 := by omega
    exact ⟨_, rfl, .inl rfl, hpos⟩
  | true =>
    have hlimit : (Allocation.all.map budget.limit).sum * 1000 <
        budget.branchLimit * 1000 := by omega
    obtain ⟨hends, htime⟩ := within_of_atMost (atMost_provisionedStages c ctx budget) hlimit now s
    refine ⟨_, rfl, ?_⟩
    rw [mainStages, if_pos rfl, runUnder_bind]
    generalize (within (budget.branchLimit * 1000) (provisionedStages c ctx budget)).runUnder
      none now s = e
      at hends htime ⊢
    obtain ⟨ending, time, t⟩ := e
    have hbefore : time < now + budget.branchLimit * 1000 := Nat.lt_of_le_of_lt htime (by omega)
    obtain ⟨⟨⟩, hdone⟩ | hbroken := hends
    · obtain rfl : ending = .done (some ()) := hdone
      exact ⟨.inl rfl, hbefore⟩
    · obtain rfl : ending = .broken := hbroken
      exact ⟨.inr rfl, hbefore⟩

end Program

/-! ## Histories -/

section Histories

variable {ctx : BranchContext} {budget : TimeBudget} {deadline : Option Nat}
  {steps taken : List StageStep} {now last : Nat} {checkedOut : Bool}

def stageLimits (budget : TimeBudget) (stages : List Stage) : Nat :=
  ((stages.filterMap (·.allocation?)).map budget.limit).sum

theorem stageLimits_append (stages stages' : List Stage) :
    stageLimits budget (stages ++ stages') =
        stageLimits budget stages + stageLimits budget stages' := by
  simp [stageLimits]

theorem stageLimits_mainSequence :
    stageLimits budget mainSequence = (Allocation.all.map budget.limit).sum := by
  simp only [stageLimits, mainSequence, Allocation.all, Stage.allocation?, List.filterMap_cons,
    List.filterMap_nil, List.map_cons, List.map_nil, List.sum_cons, List.sum_nil]
  omega

/-- The call of a main stage is held to the stage's allotment. -/
theorem limit_of_callAfter {stage : Stage} {call : CallNote} (hstage : stage ∈ mainSequence)
    (h : callAfter ctx budget steps now stage = some call) :
    call.limit = some (stageLimits budget [stage]) := by
  cases stage <;> simp [mainSequence] at hstage <;>
    grind [callAfter, terminalCall, stageLimits, Stage.allocation?]

theorem Takes.time_le {stage : Stage} {step : StageStep} {time : Nat}
    (hstage : stage ∈ mainSequence) (h : Takes ctx budget deadline steps now stage step time) :
    time ≤ now + stageLimits budget [stage] * 1000 := by
  cases h with
  | attempted hcall ha =>
    obtain ⟨-, hlimit⟩ := ha.htimely
    have hstop := (hlimit _ (ha.hcall ▸ limit_of_callAfter hstage hcall)).1
    rwa [ha.hcall, time_of_callAfter hcall] at hstop
  | passedOver | refused => exact Nat.le_add_right _ _

theorem Path.last_le {stages : List Stage} (hstages : stages ⊆ mainSequence)
    (h : Path ctx budget deadline steps now stages taken last) :
    last ≤ now + stageLimits budget stages * 1000 := by
  induction h with
  | nil => exact Nat.le_add_right _ _
  | @cons _ _ stage rest _ _ _ _ htakes _ ih =>
    have hfirst := htakes.time_le (hstages List.mem_cons_self)
    have hrest := ih fun _ hmem => hstages (List.mem_cons_of_mem _ hmem)
    have hsum : stageLimits budget (stage :: rest) =
      stageLimits budget [stage] + stageLimits budget rest := stageLimits_append [stage] rest
    omega

/-- **The default limit cuts no history.** -/
theorem MainCourse.not_cut (hfits : budget.Fits)
    (h : MainCourse ctx budget (budget.branchLimit * 1000) steps now checkedOut taken last) :
    taken.any (·.isCut) = false := by
  cases h with
  | complete hpath => exact hpath.any_isCut
  | noWorkspace => rfl
  | @cut early late stage _ time call _ hsequence hpath hcuts =>
    have hearly : early ⊆ mainSequence := by
      rw [hsequence]
      exact List.subset_append_left _ _
    have hstage : stage ∈ mainSequence := by
      rw [hsequence]
      exact List.mem_append_right _ List.mem_cons_self
    have htime := hpath.last_le hearly
    have hlimit := limit_of_callAfter hstage hcuts.hcall
    have hdropped := hcuts.hdropped.hearly _ hlimit
    rw [time_of_callAfter hcuts.hcall] at hdropped
    have hstop := Option.some.inj hcuts.hdropped.hdeadline
    -- The stages before the cut one and its own limit are some of the limits that add up to less.
    have hsum : stageLimits budget mainSequence =
        stageLimits budget early + (stageLimits budget [stage] + stageLimits budget late) := by
      rw [hsequence, stageLimits_append, ← List.singleton_append, stageLimits_append]
    have hlt := hfits.sum_limit_lt
    rw [← stageLimits_mainSequence] at hlt
    omega

/-! ## What is told -/

/-- A record does not tell of a cut. -/
def StageRecord.Uncut (r : StageRecord) : Prop := r.error ≠ some cutText

theorem uncut_ofResult (stage : Stage) (duration : Nat) (r : RunResult α) :
    (StageRecord.ofResult stage duration r).Uncut := by
  cases r with
  | ok => rintro ⟨⟩
  | error e => exact fun h => e.message_ne (by decide : cutText ∈ ownTexts) (Option.some.inj h)

theorem Takes.uncut {stage : Stage} {step : StageStep} {time : Nat}
    (h : Takes ctx budget deadline steps now stage step time) : step.record.Uncut := by
  cases h with
  | attempted => exact uncut_ofResult _ _ _
  | passedOver =>
    intro h
    exact append_ne_of_not_suffix (by decide +kernel) (Option.some.inj h)
  | refused =>
    intro h
    exact append_ne_of_not_prefix (by decide +kernel) (Option.some.inj h)

theorem Path.uncut {stages : List Stage}
    (h : Path ctx budget deadline steps now stages taken last) :
    ∀ step ∈ taken, step.record.Uncut := by
  induction h with
  | nil => exact List.forall_mem_nil _
  | cons htakes _ ih => exact List.forall_mem_cons.2 ⟨htakes.uncut, ih⟩

/-- No call is told that its branch was cut. -/
def Unaborted (notes : List Note) : Prop := ∀ n, .called n ∈ notes → n.build ≠ some .aborted

theorem unaborted_append {notes notes' : List Note} :
    Unaborted (notes ++ notes') ↔ Unaborted notes ∧ Unaborted notes' := by
  simp only [Unaborted, List.mem_append, or_imp, forall_and]

theorem unaborted_attempt {a : Attempt} (h : a.call.build ≠ some .aborted) : Unaborted a.notes := by
  intro n hn
  obtain hn | hn := List.mem_cons.1 hn
  · rw [Note.called.inj hn]
    exact h
  · rw [List.mem_singleton] at hn
    cases hending : a.ending <;> rw [hending] at hn <;> cases hn

/-- The stages before the sweep are told only of failures. -/
theorem build_of_callAfter {stage : Stage} {call : CallNote}
    (h : callAfter ctx budget steps now stage = some call) : call.build ≠ some .aborted := by
  have hbuild : buildAfter steps ≠ .aborted := by
    unfold buildAfter
    split <;> decide
  cases stage <;> grind [callAfter, terminalCall]

theorem Path.unaborted {stages : List Stage}
    (h : Path ctx budget deadline steps now stages taken last) :
    Unaborted (taken.flatMap (·.notes)) := by
  induction h with
  | nil => rintro _ ⟨⟩
  | cons htakes _ ih =>
    rw [List.flatMap_cons]
    refine unaborted_append.2 ⟨?_, ih⟩
    cases htakes with
    | attempted hcall ha => exact unaborted_attempt (ha.hcall ▸ build_of_callAfter hcall)
    | passedOver | refused => rintro _ ⟨⟩

theorem Sweeps.unaborted {target : Target} {build : BuildResult} {stages : List TerminalStage}
    {attempts : List Attempt} (hbuild : build ≠ .aborted)
    (h : Sweeps ctx budget target build now stages attempts last) :
    Unaborted (attempts.flatMap (·.notes)) := by
  induction h with
  | nil => rintro _ ⟨⟩
  | @cons _ stage _ _ _ _ ha _ ih =>
    rw [List.flatMap_cons]
    refine unaborted_append.2 ⟨unaborted_attempt ?_, ih⟩
    rw [ha.hcall]
    cases stage <;> simp [terminalCall, hbuild]

theorem Archives.unaborted {target : Target} {destination : String} {a : Archiving}
    (h : Archives ctx budget target destination now a) : Unaborted a.notes := by
  intro n hn
  have hcall : n = a.call := by
    rw [Archiving.notes] at hn
    cases hending : a.ending <;> rw [hending] at hn <;> simpa [CallEnding.returnNotes] using hn
  rw [hcall, h.hcall]
  rintro ⟨⟩

/-- What a branch leaves whose limit did not pass. -/
structure Unpassed (o : BranchOutcome) (notes : List Note) : Prop where
  drops : dropsOf notes = []
  records : ∀ r ∈ o.stages, r.Uncut
  calls : Unaborted notes
  once : ∀ stage : TerminalStage, (callsOf notes).count stage.call ≤ 1

variable {limit stop : Nat} {answer : RunResult Unit} {swept : Swept}

theorem MainCourse.uncut (h : MainCourse ctx budget limit steps now checkedOut taken last) :
    ∀ step ∈ taken, step.isCut = false → step.record.Uncut := by
  cases h with
  | complete hpath => exact fun step hstep _ => hpath.uncut step hstep
  | cut _ hpath _ =>
    intro step hstep hcut
    obtain hstep | hstep := List.mem_append.1 hstep
    · exact hpath.uncut step hstep
    · rw [List.mem_singleton.1 hstep] at hcut
      cases hcut
  | noWorkspace =>
    have hreason : "checkout failed" ≠ cutText := by decide +kernel
    intro step hstep _
    obtain ⟨stage, -, rfl⟩ := List.mem_map.1 hstep
    exact fun h => hreason (Option.some.inj h)

theorem MainCourse.unaborted (h : MainCourse ctx budget limit steps now checkedOut taken last)
    (hcut : taken.any (·.isCut) = false) : Unaborted (taken.flatMap (·.notes)) := by
  cases h with
  | complete hpath => exact hpath.unaborted
  | cut =>
    rw [List.any_append] at hcut
    cases (Bool.or_eq_false_iff.1 hcut).2
  | noWorkspace => rintro _ hn; cases hn

theorem unaborted_checkoutAttempt (answer : RunResult Unit) (stop : Nat) :
    Unaborted (checkoutAttempt ctx answer stop).notes :=
  unaborted_attempt (by rintro ⟨⟩)

theorem uncut_preparation : ∀ step ∈ preparation ctx answer stop budget, step.record.Uncut := by
  intro step hstep
  simp only [preparation, List.mem_cons, List.not_mem_nil, or_false] at hstep
  obtain rfl | rfl := hstep <;> exact uncut_ofResult _ _ _

theorem FinalStages.dropsOf_notes {stages : List Stage} (h : FinalStages stages steps)
    (hcut : steps.any (·.isCut) = false) : dropsOf (steps.flatMap (·.notes)) = [] := by
  cases h with
  | whole hdrops => exact hdrops
  | cut =>
    rw [List.any_append] at hcut
    cases (Bool.or_eq_false_iff.1 hcut).2

/-- A final course under the default limit. -/
theorem FinalCourse.unpassed (hfits : budget.Fits) (plan : BranchPlan)
    (h : FinalCourse ctx budget (budget.branchLimit * 1000) (preparation ctx answer stop budget) now
      answer.toOption.isSome steps swept last) :
    Unpassed (outcomeOf plan steps (.ok swept) last) (notesOf steps (.ok swept)) := by
  have hstages := h.finalStages
  have honce := h.finishesOnce
  have hparted := h.partedBy plan
  cases h with
  | @intro taken _ _ _ hmain harchives hsweeps =>
    have hcut := hmain.not_cut hfits
    have hnone : (preparation ctx answer stop budget ++ taken).any (·.isCut) = false := by
      rw [List.any_append, hcut]
      rfl
    -- Nothing was cut, so no mail reports a branch that was aborted.
    have hbuild : finalBuild (preparation ctx answer stop budget ++ taken) ≠ .aborted := by
      rw [finalBuild, hnone, if_neg Bool.false_ne_true]
      split <;> decide
    have hquiet := hstages.dropsOf_notes hnone
    constructor
    case drops =>
      rw [notesOf, dropsOf_append, hquiet, Swept.notes, dropsOf_append, harchives.callsOf_notes.2.2,
        hsweeps.callsOf_notes.2.2]
      rfl
    case records =>
      intro r hr
      obtain hr | hr := List.mem_append.1 hr
      · obtain ⟨step, hstep, rfl⟩ := List.mem_map.1 hr
        obtain hstep | hstep := List.mem_append.1 hstep
        · exact uncut_preparation step hstep
        · exact hmain.uncut step hstep (Bool.eq_false_iff.2 (List.any_eq_false.1 hcut step hstep))
      · obtain ⟨a, -, rfl⟩ := List.mem_map.1 hr
        exact uncut_ofResult _ _ _
    case calls =>
      have hfirst : Unaborted ((preparation ctx answer stop budget).flatMap (·.notes)) :=
        unaborted_checkoutAttempt answer stop
      rw [notesOf, List.flatMap_append, Swept.notes]
      exact unaborted_append.2 ⟨unaborted_append.2 ⟨hfirst, hmain.unaborted hcut⟩,
        unaborted_append.2 ⟨harchives.unaborted, hsweeps.unaborted hbuild⟩⟩
    case once =>
      intro stage
      have hundropped : .dropped stage.call ∉ (preparation ctx answer stop budget ++ taken).flatMap
          (·.notes) := by
        rw [← mem_dropsOf, hquiet]
        exact List.not_mem_nil
      rw [(hparted.count stage).2, (honce stage).once hundropped]

end Histories

/-! ## Branches -/

/-- **Without a limit of its own, no branch is cut.** -/
theorem Course.unpassed {plan : BranchPlan} {policy : SelectorPolicy} {config : RunConfiguration}
    {budget : TimeBudget} {steps : List StageStep} {swept : RunResult Swept} {last : Nat}
    (hresolve : plan.params.resolve policy = .ok config)
    (hbudget : TimeBudget.compute config.durationMinutes config.backend config.region = .ok budget)
    (hfits : budget.Fits) (h : Course plan policy none steps swept last) :
    Unpassed (outcomeOf plan steps swept last) (notesOf steps swept) := by
  cases h with
  | unresolved hunresolved =>
    rw [hresolve] at hunresolved
    cases hunresolved
  | noCheckout =>
    constructor
    case drops => rfl
    case records => exact List.forall_mem_singleton.2 (uncut_ofResult _ _ _)
    case calls => exact unaborted_checkoutAttempt _ _
    case once =>
      intro stage
      show [Call.checkout].count stage.call ≤ 1
      cases stage <;> decide
  | noBudget hresolved _ hrefused =>
    rw [hresolve] at hresolved
    cases hresolved
    rw [hbudget] at hrefused
    cases hrefused
  | finalized hresolved _ haccepted hfinal =>
    rw [hresolve] at hresolved
    cases hresolved
    rw [hbudget] at haccepted
    cases haccepted
    exact hfinal.unpassed hfits plan

/-- A branch goes on after a checkout that does not fail fatally. -/
theorem Course.error_eq_none {plan : BranchPlan} {policy : SelectorPolicy} {limit : Option Nat}
    {config : RunConfiguration} {budget : TimeBudget} {steps : List StageStep}
    {swept : RunResult Swept} {last time : Nat} {answer : RunResult (Option Network.Address)}
    (hresolve : plan.params.resolve policy = .ok config)
    (hbudget : TimeBudget.compute config.durationMinutes config.backend config.region = .ok budget)
    (hanswer : .returned .checkout answer time ∈ notesOf steps swept)
    (hcheckout : ∀ e, answer = .error e → e.isFatal = false)
    (h : Course plan policy limit steps swept last) :
    (outcomeOf plan steps swept last).error = none := by
  cases h with
  | unresolved => cases hanswer
  | @noCheckout _ e _ _ hfatal =>
    have hsame : answer = .error e ∧ time = last := by
      simpa [notesOf, checkoutAttempt, StageStep.notes, Attempt.notes, CallEnding.note,
        Except.map] using
        hanswer
    rw [hcheckout e hsame.1] at hfatal
    cases hfatal
  | noBudget hresolved _ hrefused =>
    rw [hresolve] at hresolved
    cases hresolved
    rw [hbudget] at hrefused
    cases hrefused
  | finalized => rfl

/-- **The default branch limit never passes**, whatever the collaborators do. For every duration,
backend and list of regions that a budget accepts, the main stages are over before it, whether or
not one of their calls breaks down. So no stage is recorded as cut, nobody is told that the branch
was aborted, and no terminal stage is called twice. If checkout lets the branch go on, every stage
gets a record, unless a call breaks down. -/
theorem BranchPlan.default_limit_never_passes (plan : BranchPlan) (c : Collaborators ω)
    (policy : SelectorPolicy) (world : ω) {config : RunConfiguration} {budget : TimeBudget}
    (hresolve : plan.params.resolve policy = .ok config)
    (hbudget : TimeBudget.compute config.durationMinutes config.backend config.region = .ok budget)
    (hregion : (Text.words config.region).length < 2 ^ 48) :
    (∀ checkedOut now s, ∃ e,
      (mainStages c (plan.context config) budget (budget.branchLimit * 1000) checkedOut).runUnder
          none now s = e ∧
        (e.ending = .done false ∨ e.ending = .broken) ∧
        e.time < now + budget.branchLimit * 1000) ∧
    (∀ o, (plan.runWithin c policy none world).ending = .done o →
      ∀ r ∈ o.stages, r.error ≠ some cutText) ∧
    (∀ n, .called n ∈ plan.notes c policy none world → n.build ≠ some .aborted) ∧
    (∀ stage : TerminalStage, (callsOf (plan.notes c policy none world)).count stage.call ≤ 1) ∧
    ∀ answer time, .returned .checkout answer time ∈ plan.notes c policy none world →
      (∀ e, answer = .error e → e.isFatal = false) →
      (plan.runWithin c policy none world).ending = .broken ∨
        ∃ o, (plan.runWithin c policy none world).ending = .done o ∧ o.error = none ∧
          o.stages.map (·.stage) = Stage.sequence := by
  have hfits := TimeBudget.fits_of_compute hbudget hregion
  refine ⟨runUnder_mainStages hfits, ?_⟩
  -- A branch follows its course, breaks down in it, or never comes out of its checkout.
  cases plan.ends c policy none world with
  | @follows steps swept last h =>
    have hunpassed := h.course.unpassed hresolve hbudget hfits
    rw [h.ending, h.notes]
    refine ⟨?_, hunpassed.calls, hunpassed.once, fun answer time hanswer hcheckout => .inr ?_⟩
    · rintro _ ⟨⟩
      exact hunpassed.records
    · refine ⟨_, rfl, ?_⟩
      have herror := h.course.error_eq_none hresolve hbudget hanswer hcheckout
      exact ⟨herror, h.course.recorded.whole herror hunpassed.drops⟩
  | stops course broken stops =>
    have hunpassed := course.unpassed hresolve hbudget hfits
    refine ⟨fun o ho => ?_, fun n hn => hunpassed.calls n (stops.called_mem hn),
      fun stage => Nat.le_trans (stops.callsOf_prefix.sublist.count_le _) (hunpassed.once stage),
      fun _ _ _ _ => .inl broken⟩
    rw [broken] at ho
    cases ho
  | @lost config' _ ending notes calls =>
    refine ⟨fun o ho => absurd ho (ending o), fun n hn => ?_, fun stage => ?_,
      fun _ _ hanswer => ?_⟩
    · have hcheckout : n = checkoutCall (plan.context config') := by simpa using notes hn
      rw [hcheckout]
      rintro ⟨⟩
    · rw [calls]
      cases stage <;> decide
    · simpa using notes hanswer

theorem BranchPlan.default_limit_never_passes_hungTest :
    ∃ config budget, hourPlan.params.resolve .firstMatch = .ok config ∧
      TimeBudget.compute config.durationMinutes config.backend config.region = .ok budget ∧
      (Text.words config.region).length < 2 ^ 48 ∧
      .returned .checkout (.ok none) 0 ∈
        hourPlan.notes (Rehearsal.collaborators hungTest) .firstMatch none [] ∧
      ∃ o, (hourPlan.runWithin (Rehearsal.collaborators hungTest) .firstMatch none []).ending =
          .done o ∧
        o.stages.map (·.stage) = Stage.sequence ∧ ∀ r ∈ o.stages, r.error ≠ some cutText := by
  have hregion : (Text.words "eu-west-1").length < 2 ^ 48 := by decide +kernel
  have hanswer : .returned .checkout (.ok none) 0 ∈
      hourPlan.notes (Rehearsal.collaborators hungTest) .firstMatch none [] :=
    List.mem_cons_of_mem _ List.mem_cons_self
  have hending : ∃ o,
      (hourPlan.runWithin (Rehearsal.collaborators hungTest) .firstMatch none []).ending =
        .done o :=
    ⟨_, rfl⟩
  refine ⟨_, _, rfl, rfl, hregion, hanswer, ?_⟩
  obtain ⟨-, hrecords, -, -, hwhole⟩ := BranchPlan.default_limit_never_passes hourPlan
    (Rehearsal.collaborators hungTest) .firstMatch [] rfl rfl hregion
  obtain ⟨o, hdone⟩ := hending
  refine ⟨o, hdone, ?_, hrecords o hdone⟩
  obtain hbroken | ⟨o', hdone', -, hstages⟩ := hwhole _ _ hanswer (by rintro _ ⟨⟩)
  · rw [hdone] at hbroken
    cases hbroken
  · rw [hdone] at hdone'
    cases hdone'
    exact hstages

end Stagehand
