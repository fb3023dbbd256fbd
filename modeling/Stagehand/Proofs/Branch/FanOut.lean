import Stagehand.Proofs.Branch.Apart
import Stagehand.Proofs.Branch.Assignment
import Stagehand.Proofs.Branch.Calls
import Stagehand.Proofs.Branch.Wording
import Stagehand.Proofs.Together

/-!
# Several branches, and each of them alone

The branches of a run share the world of their collaborators, and nobody knows in which order they
go on. If the collaborators are separate, this does not matter: every order comes to an end, and the
run that is made of the answers has one entry per axis value, which is what the first plan of that
value answers when it is run alone. A plan that breaks down alone breaks down here, and takes no
other one with it.

**How.** Alone, a branch takes a number of turns and ends somehow. It is alike to itself in the
world that others have disturbed (`Separate.alike_runBranch`), so its task takes the same turns
to the same end, whatever happens in between (`starts_task`). Tasks with a view each end in
every order, side by side as well (`Crowd.ends_start`, `ending_together`). What is left is to
gather their answers (`isRunOf_gathered`).

Main result: `FanOut.runs_each_alone`, for a crowd of tasks in any order, and for the
activity itself.
-/

namespace Stagehand

open Timed

variable {ω σ α β υ : Type}

/-! ## The errors of branches -/

/-- What an activity answers if it ends by itself. -/
def Timed.Answers (x : Timed σ α) (P : α → Prop) : Prop :=
  ∀ deadline now s a, (x.runUnder deadline now s).ending = .done a → P a

theorem answers_pure {P : α → Prop} {a : α} (h : P a) : (pure a : Timed σ α).Answers P := by
  rintro _ _ _ _ ⟨⟩
  exact h

theorem answers_bind {x : Timed σ β} {f : β → Timed σ α} {P : α → Prop} (h : ∀ b, (f b).Answers P) :
    (x >>= f).Answers P := by
  intro deadline now s a
  rw [runUnder_bind]
  rcases x.runUnder deadline now s with ⟨b | _ | _, time, t⟩
  · exact h b deadline time t a
  · rintro ⟨⟩
  · rintro ⟨⟩

/-- The error of a branch that came to an end of its own is the failure that ended it. -/
theorem answers_runBranch (c : Collaborators ω) (policy : SelectorPolicy) (limit : Option Nat)
    (plan : BranchPlan) :
    (runBranch c policy limit plan).Answers fun o =>
      ∀ text, o.error = some text → ∃ e : RunError, text = e.message := by
  refine answers_bind fun started => answers_bind fun _ => answers_bind fun result => ?_
  cases result with
  | error e =>
    refine answers_bind fun _ => answers_bind fun s => answers_bind fun ended => ?_
    exact answers_bind fun _ => answers_pure fun text htext => ⟨e, (Option.some.inj htext).symm⟩
  | ok r =>
    refine answers_bind fun s => answers_bind fun ended => answers_bind fun _ => answers_pure ?_
    rintro text ⟨⟩

/-! ## Tasks -/

namespace FanOut

theorem isPart_world : IsPart (fun s : BranchState ω => s.progress.world) fun world s =>
    { s with progress := { s.progress with world } } :=
  ⟨fun _ _ => rfl, fun _ => rfl, fun _ _ _ => rfl⟩

variable {c : Collaborators ω} {view : String → ω → υ} {policy : SelectorPolicy}
  {limit : Option Nat}
  {plans : List BranchPlan} {world : ω}

/-- A task answers what its plan comes to alone: the same end, in a world of which its axis value
has the same view. -/
def AnswersAs (view : String → ω → υ) (alone : BranchPlan → Ended (BranchState ω) BranchOutcome)
    (p : BranchPlan) (r : Option (Ended (BranchState ω) BranchOutcome)) : Prop :=
  ∃ e, r = some e ∧
    e.Matches (BranchState.Like fun w w' => view p.axis w = view p.axis w') (alone p)

/-- **The task of a plan comes to what the plan comes to alone**, whatever others do. -/
theorem starts_task (hc : c.Separate view) {p : BranchPlan}
    (hreturns : (p.runWithin c policy limit world).ending ≠ .cut) :
    ∃ n, (task (runBranch c policy limit) (some p)).Starts view [p.axis]
      (AnswersAs view (fun p => p.runWithin c policy limit world) p) n 0 world := by
  let alone : BranchState ω := { progress := { world } }
  refine ⟨(runBranch c policy limit p).turns 0 alone, fun t ht => ?_⟩
  let own : BranchState ω := { progress := { world := t } }
  have hlike : own.Like (fun w w' => view p.axis w = view p.axis w') alone :=
    ⟨⟨rfl, rfl, ht p.axis List.mem_cons_self⟩, rfl, rfl, rfl, rfl⟩
  obtain ⟨hspares, hcomes⟩ := (hc.alike_runBranch policy limit p hlike).comes isPart_world
    (fun s s' w hs hw => ⟨⟨hs.progress.ledger, hs.progress.events, hw.trans hs.progress.world⟩,
      hs.records, hs.inFlight, hs.target, hs.runner⟩) hreturns (isPart_world.setPart_part own)
  have htask : (task (runBranch c policy limit) (some p)).toRest 0 t =
      (((runBranch c policy limit p).carrying (fun s => s.progress.world)
        (fun world s => { s with progress := { s.progress with world } })
          own).mapAnswer some).toRest
          0 t := rfl
  rw [htask, toRest_mapAnswer]
  exact ⟨hspares, hcomes.mapAnswer fun e he => ⟨e, rfl, he⟩⟩

/-! ## What tasks come to -/

/-- What a run makes of its plans, each of which may be run alone. -/
structure IsRunOf (alone : BranchPlan → Ended (BranchState ω) BranchOutcome)
    (plans : List BranchPlan) (r : FanOut ω) : Prop where
  /-- Every axis value has an entry, and nothing else has. -/
  axes : ∀ axis, (r.summary.branches.get? axis).isSome ↔ axis ∈ plans.map (·.axis)
  /-- It is what the first plan of the value answers alone; or that its branch broke down, if the
  plan does so alone. -/
  entry : ∀ axis p, plans.find? (·.axis == axis) = some p →
    ∃ o, r.summary.branches.get? axis = some o ∧
      ((alone p).ending = .done o ∧ o.error ≠ some brokenText ∨
        (alone p).ending = .broken ∧ o = BranchOutcome.failed axis brokenText)
  /-- No value goes without a plan. -/
  planned : ∀ axis o, r.summary.branches.get? axis = some o → o.error ≠ some unplannedText
  overall : r.summary.overall =
    if ∀ o ∈ r.summary.branches.values, o.artifactsCollected = false then .failing
    else if ∀ o ∈ r.summary.branches.values, o.status = .passed then .passed
    else .degraded
  /-- As many branches are announced as there are entries. -/
  announced : r.events.head? = some (.runStarted r.summary.branches.size)

variable {alone : BranchPlan → Ended (BranchState ω) BranchOutcome}

theorem ofOutcomes_eq (outcomes : List BranchOutcome) : OverallStatus.ofOutcomes outcomes =
    if ∀ o ∈ outcomes, o.artifactsCollected = false then .failing
    else if ∀ o ∈ outcomes, o.status = .passed then .passed
    else .degraded := by
  simp [OverallStatus.ofOutcomes]

/-- The entry of a plan that ends alone. -/
theorem outcome_cases {p : BranchPlan} (hreturns : (alone p).ending ≠ .cut)
    (herror : ∀ o, (alone p).ending = .done o →
      ∀ text, o.error = some text → ∃ e : RunError, text = e.message) :
    ((alone p).ending = .done ((alone p).outcome p.axis) ∧
        ((alone p).outcome p.axis).error ≠ some brokenText ∨
      (alone p).ending = .broken ∧
        (alone p).outcome p.axis = BranchOutcome.failed p.axis brokenText) ∧
      ((alone p).outcome p.axis).error ≠ some unplannedText := by
  unfold Ended.outcome
  cases hending : (alone p).ending with
  | cut => exact absurd hending hreturns
  | broken =>
    have hne : some brokenText ≠ some unplannedText := by decide
    exact ⟨.inr ⟨rfl, rfl⟩, hne⟩
  | done o =>
    have hne : ∀ text ∈ ownTexts, o.error ≠ some text := by
      intro text htext herr
      obtain ⟨e, he⟩ := herror o hending text herr
      exact e.message_ne htext he.symm
    exact ⟨.inl ⟨rfl, hne _ (by decide)⟩, hne _ (by decide)⟩

/-- Entries that are those of the plans alone make a run of the plans. -/
theorem isRunOf_ofBranches {bs : List (String × Option (Ended (BranchState ω) BranchOutcome))}
    (hentries : bs.map (fun b => (b.1, outcomeOf b.1 b.2)) =
      (distinctPlans plans).map fun p => (p.axis, (alone p).outcome p.axis))
    (hreturns : ∀ p ∈ distinctPlans plans, (alone p).ending ≠ .cut)
    (herror : ∀ p o, (alone p).ending = .done o →
      ∀ text, o.error = some text → ∃ e : RunError, text = e.message) :
    (ofBranches bs).IsRunOf alone plans := by
  have hnames : (bs.map fun b => (b.1, outcomeOf b.1 b.2)).map (·.1) =
      (distinctPlans plans).map (·.axis) := by
    rw [hentries, List.map_map]
    rfl
  -- No axis value comes twice, so the map of the summary loses no entry.
  have hnodup : ((bs.map fun b => (b.1, outcomeOf b.1 b.2)).map (·.1)).Nodup := by
    rw [hnames]
    exact nodup_axes_distinctPlans plans
  have hget : ∀ p ∈ distinctPlans plans,
      (ofBranches bs).summary.branches.get? p.axis = some ((alone p).outcome p.axis) := by
    intro p hp
    refine NameMap.get?_ofList_of_mem hnodup ?_
    rw [hentries]
    exact List.mem_map_of_mem hp
  have hsome : ∀ axis, ((ofBranches bs).summary.branches.get? axis).isSome ↔
      axis ∈ plans.map (·.axis) := by
    intro axis
    refine (NameMap.isSome_get?_ofList _ axis).trans ?_
    rw [hnames, map_axis_distinctPlans, mem_distinctNames]
    exact and_iff_left List.not_mem_nil
  refine ⟨hsome, fun axis p hfind => ?_, fun axis o ho => ?_, ofOutcomes_eq _, ?_⟩
  · have haxis : p.axis = axis := by simpa using List.find?_some hfind
    subst haxis
    have hp := mem_distinctPlans.2 hfind
    exact ⟨_, hget p hp, (outcome_cases (hreturns p hp) (herror p)).1⟩
  · have hmem := (hsome axis).1 (by rw [ho]; rfl)
    obtain ⟨p, hp, rfl⟩ := exists_mem_distinctPlans hmem
    rw [hget p hp] at ho
    cases ho
    exact (outcome_cases (hreturns p hp) (herror p)).2
  · have hsize : (ofBranches bs).summary.branches.size = bs.length :=
      (NameMap.size_ofList hnodup).trans (List.length_map _)
    rw [hsize]
    rfl

theorem outcomes_of_forall₂ {ps : List BranchPlan}
    {answers : List (Option (Option (Ended (BranchState ω) BranchOutcome)))}
    (h : List.Forall₂ (fun p r => ∃ answer, r = some answer ∧ AnswersAs view alone p answer)
      ps answers) :
    ((ps.map (·.axis)).zip (answers.map (·.join))).map (fun b => (b.1, outcomeOf b.1 b.2)) =
      ps.map fun p => (p.axis, (alone p).outcome p.axis) := by
  induction h with
  | nil => rfl
  | @cons p r ps answers hr _ ih =>
    obtain ⟨_, rfl, e, rfl, he⟩ := hr
    have hout : e.outcome p.axis = (alone p).outcome p.axis := by
      rw [Ended.outcome, Ended.outcome, he.ending]
    show (p.axis, e.outcome p.axis) :: _ = _ :: _
    rw [hout]
    exact congrArg _ ih

theorem branches_of_forall₂ {ps : List BranchPlan}
    {answers : List (Option (Option (Ended (BranchState ω) BranchOutcome)))}
    (h : List.Forall₂ (fun p r => ∃ answer, r = some answer ∧ AnswersAs view alone p answer)
      ps answers) :
    (ofBranches ((ps.map (·.axis)).zip (answers.map (·.join)))).branches.map (·.1) =
        ps.map (·.axis) ∧
      ∀ b ∈ (ofBranches ((ps.map (·.axis)).zip (answers.map (·.join)))).branches,
        ∃ p ∈ ps, b.1 = p.axis ∧ AnswersAs view alone p (some b.2) := by
  induction h with
  | nil => exact ⟨rfl, List.forall_mem_nil _⟩
  | @cons p _ ps _ hr _ ih =>
    obtain ⟨_, rfl, e, rfl, he⟩ := hr
    obtain ⟨haxes, hbranches⟩ := ih
    refine ⟨congrArg (p.axis :: ·) haxes, List.forall_mem_cons.2 ⟨?_, fun b hb => ?_⟩⟩
    · exact ⟨p, List.mem_cons_self, rfl, e, rfl, he⟩
    · obtain ⟨q, hq, hanswers⟩ := hbranches b hb
      exact ⟨q, List.mem_cons_of_mem _ hq, hanswers⟩

theorem branches_gathered {answers : List (Option (Option (Ended (BranchState ω) BranchOutcome)))}
    (h : List.Forall₂ (fun p r => ∃ answer, r = some answer ∧ AnswersAs view alone p answer)
      (distinctPlans plans) answers) :
    (gathered plans answers).branches.map (·.1) = (distinctPlans plans).map (·.axis) ∧
      ∀ b ∈ (gathered plans answers).branches, ∃ p ∈ distinctPlans plans,
        b.1 = p.axis ∧ AnswersAs view alone p (some b.2) := by
  have haxes : (assignments plans).map (·.1) = (distinctPlans plans).map (·.axis) := by
    rw [assignments_eq_distinctPlans, List.map_map]
    rfl
  have hbranches := branches_of_forall₂ h
  rwa [← haxes] at hbranches ⊢

/-- Answers that are those of the plans alone are gathered as a run of the plans. -/
theorem isRunOf_gathered {answers : List (Option (Option (Ended (BranchState ω) BranchOutcome)))}
    (h : List.Forall₂ (fun p r => ∃ answer, r = some answer ∧ AnswersAs view alone p answer)
      (distinctPlans plans) answers)
    (hreturns : ∀ p ∈ distinctPlans plans, (alone p).ending ≠ .cut)
    (herror : ∀ p o, (alone p).ending = .done o →
      ∀ text, o.error = some text → ∃ e : RunError, text = e.message) :
    (gathered plans answers).IsRunOf alone plans := by
  refine isRunOf_ofBranches ?_ hreturns herror
  have haxes : (assignments plans).map (·.1) = (distinctPlans plans).map (·.axis) := by
    rw [assignments_eq_distinctPlans, List.map_map]
    rfl
  rw [haxes]
  exact outcomes_of_forall₂ h

/-! ## The run -/

theorem tasks_eq (run : BranchPlan → Timed (BranchState ω) BranchOutcome)
    (plans : List BranchPlan) :
    tasks run plans = (distinctPlans plans).map fun p => task run (some p) := by
  rw [tasks, assignments_eq_distinctPlans, List.map_map]
  rfl

/-- In whatever order the tasks of a run go on, and side by side as well, each answers what its plan
comes to alone. -/
theorem answers_as_alone (hc : c.Separate view) (policy : SelectorPolicy) (limit : Option Nat)
    (plans : List BranchPlan) (world : ω)
    (hreturns : ∀ p ∈ distinctPlans plans, (p.runWithin c policy limit world).ending ≠ .cut) :
    ((Crowd.start world (tasks (runBranch c policy limit) plans)).Ends
      (List.Forall₂ (fun p r => ∃ answer, r = some answer ∧
        AnswersAs view (fun p => p.runWithin c policy limit world) p answer)
          (distinctPlans plans))) ∧
    ∃ answers,
      ((activity (runBranch c policy limit) plans).run world).ending =
        .done (gathered plans answers) ∧
      List.Forall₂ (fun p r => ∃ answer, r = some answer ∧
        AnswersAs view (fun p => p.runWithin c policy limit world) p answer) (distinctPlans plans)
          answers := by
  have hkeys := nodup_axes_distinctPlans plans
  have hstarts : ∀ p ∈ distinctPlans plans, ∃ n,
      (task (runBranch c policy limit) (some p)).Starts view [p.axis]
        (AnswersAs view (fun p => p.runWithin c policy limit world) p) n 0 world :=
    fun p hp => starts_task hc (hreturns p hp)
  constructor
  · rw [tasks_eq]
    exact Crowd.ends_start hkeys hstarts
  · obtain ⟨answers, hending, hall⟩ := ending_together hkeys hstarts
    refine ⟨answers, ?_, hall⟩
    show (((together (tasks (runBranch c policy limit) plans)).andThen fun answers =>
      done (gathered plans answers)).runUnder none 0 world).ending = _
    rw [← tasks_eq, Timed.run] at hending
    rw [runUnder_andThen]
    generalize (together (tasks (runBranch c policy limit) plans)).runUnder none 0 world =
      e at hending ⊢
    obtain ⟨_, time, s⟩ := e
    obtain rfl : _ = Ending.done answers := hending
    rfl

/-- **Run side by side, each branch comes to what it comes to alone.** In whatever order the tasks
of a run go on, they all end, and the run that they make has one entry per axis value, which is what
the first plan of that value answers alone, or a breakdown if it breaks down alone. -/
theorem runs_each_alone (hc : c.Separate view) (policy : SelectorPolicy) (limit : Option Nat)
    (plans : List BranchPlan) (world : ω)
    (hreturns : ∀ p ∈ distinctPlans plans, (p.runWithin c policy limit world).ending ≠ .cut) :
    ((Crowd.start world (tasks (runBranch c policy limit) plans)).Ends fun answers =>
      (gathered plans answers).IsRunOf (fun p => p.runWithin c policy limit world) plans) ∧
    ∃ r, ((activity (runBranch c policy limit) plans).run world).ending = .done r ∧
      r.IsRunOf (fun p => p.runWithin c policy limit world) plans := by
  have herror : ∀ p o, (BranchPlan.runWithin p c policy limit world).ending = .done o →
      ∀ text, o.error = some text → ∃ e : RunError, text = e.message :=
    fun p o ho => answers_runBranch c policy limit p none 0 _ o ho
  obtain ⟨hends, answers, hending, hall⟩ := answers_as_alone hc policy limit plans world hreturns
  exact ⟨hends.mono fun _ h => isRunOf_gathered h hreturns herror, _, hending,
    isRunOf_gathered hall hreturns herror⟩

/-! ### A branch that breaks down beside another one -/

/-- Two branches; the value of the first one is asked for once more. -/
def twoAxes : List BranchPlan :=
  [hourPlan, { hourPlan with axis := "i4i.xlarge" }, { hourPlan with testId := "t-2" }]

/-- The test of the second branch breaks down while the first one is still tested. -/
def breakingTest : List Rehearsal.CallRule :=
  [⟨.runTest, some "i4i.large", { delay := 10 }⟩,
    ⟨.runTest, some "i4i.xlarge", { delay := 5, breaks := true }⟩]

theorem breakingTest_returns : ∀ p ∈ distinctPlans twoAxes,
    (p.runWithin (Rehearsal.collaborators breakingTest) .firstMatch none []).ending ≠ .cut := by
  have hcut : ∀ p ∈ distinctPlans twoAxes,
      (p.runWithin (Rehearsal.collaborators breakingTest) .firstMatch none []).ending.isCut =
        false := by
    decide +kernel
  intro p hp h
  have hp := hcut p hp
  rw [h] at hp
  cases hp

theorem runs_each_alone_breakingTest :
    (∀ p ∈ distinctPlans twoAxes,
      (p.runWithin (Rehearsal.collaborators breakingTest) .firstMatch none []).ending ≠ .cut) ∧
    ((Crowd.start [] (tasks (runBranch (Rehearsal.collaborators breakingTest) .firstMatch none)
        twoAxes)).Ends fun answers => (gathered twoAxes answers).IsRunOf
          (fun p => p.runWithin (Rehearsal.collaborators breakingTest) .firstMatch none [])
            twoAxes) ∧
    ∃ r, ((activity (runBranch (Rehearsal.collaborators breakingTest) .firstMatch none) twoAxes).run
        []).ending = .done r ∧
      r.IsRunOf (fun p => p.runWithin (Rehearsal.collaborators breakingTest) .firstMatch none [])
        twoAxes := by
  exact ⟨breakingTest_returns, runs_each_alone (Rehearsal.separate_collaborators breakingTest)
    .firstMatch none twoAxes [] breakingTest_returns⟩

end FanOut

end Stagehand
