import Stagehand.Proofs.Branch.Stages
import Stagehand.Proofs.Matching

/-!
# What every part of a branch respects

A **likeness** relates activities, and is kept by every way to build a branch: by sequencing, by
limits, by working on a part of a state. Two worlds of collaborators may be alike in any sense, as
long as their calls are; then the branches that are run with them are alike. So a fact about runs of
branches that goes down to calls is proved once for each way of building, and once for each call.

Main results: `Likeness.like_runBranch`, for any likeness, and `runsAs_runBranch`, for
running alike.
-/

namespace Stagehand

open Timed

/-- A relation between activities that is kept by building. `Like world E x y` relates activities
which are started in states that `E` relates; `world` is what a state shares with others. -/
structure Likeness (ω : Type) where
  Like : {σ σ' α : Type} → (σ → ω) → (σ → σ' → Prop) → Timed σ α → Timed σ' α → Prop
  like_pure : ∀ {σ σ' α : Type} {world : σ → ω} {E : σ → σ' → Prop} (a : α),
    Like world E (pure a) (pure a)
  like_bind : ∀ {σ σ' α β : Type} {world : σ → ω} {E : σ → σ' → Prop} {x : Timed σ β}
    {y : Timed σ' β} {f : β → Timed σ α} {g : β → Timed σ' α},
    Like world E x y → (∀ b, Like world E (f b) (g b)) → Like world E (x >>= f) (y >>= g)
  like_now : ∀ {σ σ' : Type} {world : σ → ω} {E : σ → σ' → Prop},
    Like world E Timed.now Timed.now
  /-- A change of a state must leave the world as it is. -/
  like_modify : ∀ {σ σ' : Type} {world : σ → ω} {E : σ → σ' → Prop} {f : σ → σ} {g : σ' → σ'},
    (∀ s s', E s s' → E (f s) (g s') ∧ world (f s) = world s) →
    Like world E (Timed.modify f) (Timed.modify g)
  /-- What goes on with a state must depend only on what related states have in common. -/
  like_get_bind : ∀ {σ σ' α : Type} {world : σ → ω} {E : σ → σ' → Prop} {f : σ → Timed σ α}
    {g : σ' → Timed σ' α},
    (∀ s s', E s s' → Like world E (f s) (g s')) → Like world E (get >>= f) (get >>= g)
  like_within : ∀ {σ σ' α : Type} {world : σ → ω} {E : σ → σ' → Prop} {x : Timed σ α}
    {y : Timed σ' α} (millis : Nat),
    Like world E x y → Like world E (within millis x) (within millis y)
  like_onPart : ∀ {σ σ' τ τ' α : Type} {world : τ → ω} {E : σ → σ' → Prop} {E' : τ → τ' → Prop}
    {part : σ → τ} {setPart : τ → σ → σ} {part' : σ' → τ'} {setPart' : τ' → σ' → σ'}
    {x : Timed τ α} {y : Timed τ' α}, IsPart part setPart → IsPart part' setPart' →
    (∀ s s', E s s' → E' (part s) (part' s')) →
    (∀ s s' t t', E s s' → E' t t' → E (setPart t s) (setPart' t' s')) →
    Like world E' x y →
    Like (fun s => world (part s)) E (x.onPart part setPart) (y.onPart part' setPart')

variable {ω ω' α : Type}

/-! ## States that differ in their world -/

/-- The worlds are alike; nothing else differs. -/
structure Progress.Like (W : ω → ω' → Prop) (p : Progress ω) (p' : Progress ω') : Prop where
  ledger : p.ledger = p'.ledger
  events : p.events = p'.events
  world : W p.world p'.world

/-- The worlds are alike; nothing else differs. -/
structure BranchState.Like (W : ω → ω' → Prop) (s : BranchState ω) (s' : BranchState ω') :
    Prop where
  progress : s.progress.Like W s'.progress
  records : s.records = s'.records
  inFlight : s.inFlight = s'.inFlight
  target : s.target = s'.target
  runner : s.runner = s'.runner

theorem BranchState.Like.anyFailed_eq {W : ω → ω' → Prop} {s : BranchState ω} {s' : BranchState ω'}
    (h : s.Like W s') : s.anyFailed = s'.anyFailed := by
  rw [anyFailed, anyFailed, h.records]

namespace Likeness

variable (K : Likeness ω) (W : ω → ω' → Prop)

/-- Alike in what becomes of the world. -/
def LikeWorld (x : Timed ω α) (y : Timed ω' α) : Prop := K.Like id W x y

/-- Alike in what becomes of the progress of a branch. -/
def LikeProgress (x : Timed (Progress ω) α) (y : Timed (Progress ω') α) : Prop :=
  K.Like Progress.world (Progress.Like W) x y

/-- Alike in what becomes of the state of a branch. -/
def LikeState (x : Timed (BranchState ω) α) (y : Timed (BranchState ω') α) : Prop :=
  K.Like (fun s => s.progress.world) (BranchState.Like W) x y

/-- The calls of a branch are alike, each within the limit that the branch sets to it. Artifacts are
copied to one place. -/
structure Calls (c : Collaborators ω) (c' : Collaborators ω') (ctx : BranchContext) : Prop where
  checkout : K.LikeState W (BranchState.outside (c.checkout ctx))
    (BranchState.outside (c'.checkout ctx))
  createRunner : ∀ limit, K.LikeState W
    (bounded Stage.createRunner.name limit (BranchState.outside (c.createRunner ctx limit)))
    (bounded Stage.createRunner.name limit (BranchState.outside (c'.createRunner ctx limit)))
  runTest : ∀ target limit, K.LikeState W
    (bounded Stage.runTest.name limit (BranchState.outside (c.runTest ctx target limit)))
    (bounded Stage.runTest.name limit (BranchState.outside (c'.runTest ctx target limit)))
  collectLogs : ∀ target limit, K.LikeState W
    (bounded Stage.collectLogs.name limit (BranchState.outside (c.collectLogs ctx target limit)))
    (bounded Stage.collectLogs.name limit (BranchState.outside (c'.collectLogs ctx target limit)))
  terminal : ∀ stage target limit build, K.LikeProgress W
    (Progress.outside (bounded stage.name limit (terminalStep c ctx stage target limit build)))
    (Progress.outside (bounded stage.name limit (terminalStep c' ctx stage target limit build)))
  copyArtifacts : ∀ target limit, K.LikeProgress W
    (Progress.outside (bounded "copy_artifacts" limit
      (c.copyArtifacts ctx target (Path.join ctx.workdir artifactsDir))))
    (Progress.outside (bounded "copy_artifacts" limit
      (c'.copyArtifacts ctx target (Path.join ctx.workdir artifactsDir))))

variable {K W}

section Rules

/-! ## Rules for branches -/

theorem like_onProgress {x : Timed (Progress ω) α} {y : Timed (Progress ω') α}
    (h : K.LikeProgress W x y) :
    K.LikeState W (BranchState.onProgress x) (BranchState.onProgress y) :=
  K.like_onPart BranchState.isPart_progress BranchState.isPart_progress (fun _ _ hs => hs.progress)
    (fun _ _ _ _ hs hp => ⟨hp, hs.records, hs.inFlight, hs.target, hs.runner⟩) h

theorem like_outsideProgress {x : Timed ω α} {y : Timed ω' α} (h : K.LikeWorld W x y) :
    K.LikeProgress W (Progress.outside x) (Progress.outside y) :=
  K.like_onPart Progress.isPart_world Progress.isPart_world (fun _ _ hp => hp.world)
    (fun _ _ _ _ hp hw => ⟨hp.ledger, hp.events, hw⟩) h

theorem like_outside {x : Timed ω α} {y : Timed ω' α} (h : K.LikeWorld W x y) :
    K.LikeState W (BranchState.outside x) (BranchState.outside y) :=
  like_onProgress (like_outsideProgress h)

theorem like_bounded {σ σ' : Type} {world : σ → ω} {E : σ → σ' → Prop} {x : Timed σ (RunResult α)}
    {y : Timed σ' (RunResult α)} (step : String) (limit : Nat) (h : K.Like world E x y) :
    K.Like world E (bounded step limit x) (bounded step limit y) := by
  refine K.like_bind (K.like_within _ h) fun ended => ?_
  cases ended <;> exact K.like_pure _

/-- The steps themselves are alike, whatever limits the branch sets to them. -/
structure Steps (K : Likeness ω) (W : ω → ω' → Prop) (c : Collaborators ω) (c' : Collaborators ω')
    (ctx : BranchContext) : Prop where
  checkout : K.LikeWorld W (c.checkout ctx) (c'.checkout ctx)
  createRunner : ∀ limit, K.LikeWorld W (c.createRunner ctx limit) (c'.createRunner ctx limit)
  runTest : ∀ target limit, K.LikeWorld W (c.runTest ctx target limit) (c'.runTest ctx target limit)
  collectLogs : ∀ target limit,
    K.LikeWorld W (c.collectLogs ctx target limit) (c'.collectLogs ctx target limit)
  cleanResources : ∀ target limit,
    K.LikeWorld W (c.cleanResources ctx target limit) (c'.cleanResources ctx target limit)
  sendEmail : ∀ build limit, K.LikeWorld W (c.sendEmail ctx build limit)
    (c'.sendEmail ctx build limit)
  copyArtifacts : ∀ target,
    K.LikeWorld W (c.copyArtifacts ctx target (Path.join ctx.workdir artifactsDir))
      (c'.copyArtifacts ctx target (Path.join ctx.workdir artifactsDir))

theorem Steps.calls {c : Collaborators ω} {c' : Collaborators ω'} {ctx : BranchContext}
    (h : K.Steps W c c' ctx) : K.Calls W c c' ctx where
  checkout := like_outside h.checkout
  createRunner limit := like_bounded _ limit (like_outside (h.createRunner limit))
  runTest target limit := like_bounded _ limit (like_outside (h.runTest target limit))
  collectLogs target limit := like_bounded _ limit (like_outside (h.collectLogs target limit))
  terminal stage target limit build := by
    refine like_outsideProgress (like_bounded _ limit ?_)
    cases stage with
    | cleanResources => exact h.cleanResources target limit
    | sendEmail => exact h.sendEmail build limit
  copyArtifacts target limit := like_outsideProgress (like_bounded _ limit (h.copyArtifacts target))

theorem like_tellProgress (e : Event) : K.LikeProgress W (Progress.tell e) (Progress.tell e) :=
  K.like_modify fun _ _ hp => ⟨⟨hp.ledger, by rw [hp.events], hp.world⟩, rfl⟩

theorem like_tell (e : Event) : K.LikeState W (BranchState.tell e) (BranchState.tell e) :=
  like_onProgress (like_tellProgress e)

theorem like_keep (r : StageRecord) : K.LikeState W (BranchState.keep r) (BranchState.keep r) :=
  K.like_modify fun _ _ hs =>
    ⟨⟨hs.progress, by rw [hs.records], hs.inFlight, hs.target, hs.runner⟩, rfl⟩

theorem like_record (axis : String) (r : StageRecord) :
    K.LikeState W (BranchState.record axis r) (BranchState.record axis r) :=
  K.like_bind (like_tell _) fun _ => like_keep r

theorem like_setInFlight (stage : Option (Stage × Nat)) : K.LikeState W
    (Timed.modify fun s => { s with inFlight := stage })
    (Timed.modify fun s => { s with inFlight := stage }) :=
  K.like_modify fun _ _ hs => ⟨⟨hs.progress, hs.records, rfl, hs.target, hs.runner⟩, rfl⟩

theorem like_addRecords (records : List StageRecord) : K.LikeState W
    (Timed.modify fun s => { s with records := s.records ++ records })
    (Timed.modify fun s => { s with records := s.records ++ records }) :=
  K.like_modify fun _ _ hs =>
    ⟨⟨hs.progress, by rw [hs.records], hs.inFlight, hs.target, hs.runner⟩, rfl⟩

theorem like_attempt (axis : String) (stage : Stage) {x : Timed (BranchState ω) (RunResult α)}
    {y : Timed (BranchState ω') (RunResult α)} (h : K.LikeState W x y) :
    K.LikeState W (BranchState.attempt axis stage x) (BranchState.attempt axis stage y) := by
  refine K.like_bind K.like_now fun started => ?_
  refine K.like_bind (like_setInFlight _) fun _ => ?_
  refine K.like_bind (like_tell _) fun _ => K.like_bind h fun result => ?_
  refine K.like_bind (like_setInFlight _) fun _ => K.like_bind K.like_now fun ended => ?_
  exact K.like_bind (like_record _ _) fun _ => K.like_pure result

end Rules

section Branch

/-! ## Branches -/

variable {c : Collaborators ω} {c' : Collaborators ω'} {ctx : BranchContext} {budget : TimeBudget}

theorem like_runnerStage (hc : K.Calls W c c' ctx) :
    K.LikeState W (runnerStage c ctx budget) (runnerStage c' ctx budget) := by
  unfold runnerStage
  split
  · refine K.like_bind (like_attempt _ _ (hc.createRunner _)) fun created => ?_
    cases created with
    | ok address =>
      refine K.like_bind (K.like_modify fun _ _ hs => ?_) fun _ => K.like_pure _
      exact ⟨⟨hs.progress, hs.records, hs.inFlight, rfl, rfl⟩, rfl⟩
    | error e =>
      dsimp only
      split
      · exact K.like_pure _
      · exact K.like_bind (like_tell _) fun _ => K.like_pure _
  · exact K.like_bind (like_keep _) fun _ => K.like_pure _

theorem like_testStage (hc : K.Calls W c c' ctx) (unusable : Option RunError) :
    K.LikeState W (testStage c ctx budget unusable) (testStage c' ctx budget unusable) := by
  cases unusable with
  | some reason => exact like_record _ _
  | none =>
    refine K.like_get_bind fun s s' hs => ?_
    rw [hs.target]
    exact K.like_bind (like_attempt _ _ (hc.runTest _ _)) fun _ => K.like_pure _

theorem like_logStage (hc : K.Calls W c c' ctx) :
    K.LikeState W (logStage c ctx budget) (logStage c' ctx budget) := by
  refine K.like_get_bind fun s s' hs => ?_
  rw [hs.target]
  exact K.like_bind (like_attempt _ _ (hc.collectLogs _ _)) fun _ => K.like_pure _

theorem like_runTerminal (hc : K.Calls W c c' ctx) (target : Target) (build : BuildResult)
    (stage : TerminalStage) :
    K.LikeProgress W (runTerminal c ctx budget target build stage)
      (runTerminal c' ctx budget target build stage) := by
  refine K.like_bind (hc.terminal _ _ _ _) fun result => ?_
  refine K.like_bind (K.like_modify fun _ _ hp => ?_) fun _ => K.like_pure _
  exact ⟨⟨by rw [hp.ledger], hp.events, hp.world⟩, rfl⟩

theorem like_terminalStages (hc : K.Calls W c c' ctx) (target : Target) (build : BuildResult)
    (stages : List TerminalStage) :
    K.LikeState W (terminalStages c ctx budget target build stages)
      (terminalStages c' ctx budget target build stages) := by
  induction stages with
  | nil => exact K.like_pure _
  | cons stage rest ih =>
    exact K.like_bind (like_attempt _ _ (like_onProgress (like_runTerminal hc _ _ _))) fun _ => ih

theorem like_provisionedStages (hc : K.Calls W c c' ctx) :
    K.LikeState W (provisionedStages c ctx budget) (provisionedStages c' ctx budget) := by
  refine K.like_bind (like_runnerStage hc) fun unusable => ?_
  refine K.like_bind (like_testStage hc _) fun _ => K.like_bind (like_logStage hc) fun _ => ?_
  refine K.like_get_bind fun s s' hs => ?_
  rw [hs.target, hs.anyFailed_eq]
  exact like_terminalStages hc _ _ _

theorem like_recordCut (axis : String) :
    K.LikeState W (recordCut axis) (recordCut axis) := by
  refine K.like_get_bind fun s s' hs => ?_
  rw [hs.inFlight]
  cases s'.inFlight with
  | none => exact K.like_pure _
  | some stage =>
    refine K.like_bind K.like_now fun _ => ?_
    exact K.like_bind (like_setInFlight _) fun _ => like_record _ _

theorem like_mainStages (hc : K.Calls W c c' ctx) (limit : Nat) (checkedOut : Bool) :
    K.LikeState W (mainStages c ctx budget limit checkedOut)
      (mainStages c' ctx budget limit checkedOut) := by
  unfold mainStages
  split
  · refine K.like_bind (K.like_within _ (like_provisionedStages hc)) fun ended => ?_
    cases ended with
    | some => exact K.like_pure _
    | none => exact K.like_bind (like_recordCut _) fun _ => K.like_pure _
  · exact K.like_bind (like_addRecords _) fun _ => K.like_pure _

theorem like_sweepStage (hc : K.Calls W c c' ctx) (target : Target) (build : BuildResult)
    (report : SweepReport) (stage : TerminalStage) :
    K.LikeProgress W (sweepStage c ctx budget target build report stage)
      (sweepStage c' ctx budget target build report stage) := by
  refine K.like_bind K.like_now fun _ => K.like_bind (like_runTerminal hc _ _ _) fun _ => ?_
  exact K.like_bind K.like_now fun _ => K.like_bind (like_tellProgress _) fun _ => K.like_pure _

theorem like_sweepStages (hc : K.Calls W c c' ctx) (target : Target) (build : BuildResult)
    (stages : List TerminalStage) (report : SweepReport) :
    K.LikeProgress W (sweepStages c ctx budget target build stages report)
      (sweepStages c' ctx budget target build stages report) := by
  induction stages generalizing report with
  | nil => exact K.like_pure _
  | cons stage rest ih => exact K.like_bind (like_sweepStage hc _ _ _ _) ih

/-- Artifacts may be copied to any place, if that is done alike. -/
theorem like_sweep (hc : K.Calls W c c' ctx) (target : Target) (build : BuildResult)
    {destination : String}
    (hcopy : ∀ limit, K.LikeProgress W
      (Progress.outside (bounded "copy_artifacts" limit (c.copyArtifacts ctx target destination)))
      (Progress.outside
        (bounded "copy_artifacts" limit (c'.copyArtifacts ctx target destination)))) :
    K.LikeProgress W (sweep c ctx budget target build destination)
      (sweep c' ctx budget target build destination) := by
  refine K.like_bind ?_ fun report => K.like_get_bind fun p p' hp => ?_
  · refine K.like_bind (hcopy _) fun _ => ?_
    exact K.like_bind (like_tellProgress _) fun _ => K.like_pure _
  · rw [hp.ledger]
    exact like_sweepStages hc _ _ _ _

theorem like_finish (hc : K.Calls W c c' ctx) (wasCut : Bool) :
    K.LikeState W (finish c ctx budget wasCut) (finish c' ctx budget wasCut) := by
  refine K.like_get_bind fun s s' hs => ?_
  rw [hs.target, hs.anyFailed_eq]
  refine K.like_bind (like_onProgress (like_sweep hc _ _ (hc.copyArtifacts _))) fun report => ?_
  exact K.like_bind (like_addRecords _) fun _ => K.like_pure _

theorem like_budgeted (hc : K.Calls W c c' ctx) (limit : Option Nat) (checkedOut : Bool) :
    K.LikeState W (runStages.budgeted c limit ctx checkedOut)
      (runStages.budgeted c' limit ctx checkedOut) := by
  refine K.like_bind (like_attempt _ _ (K.like_pure _)) fun computed => ?_
  cases computed with
  | error => exact K.like_pure _
  | ok budget =>
    refine K.like_bind (like_mainStages hc _ _) fun _ => ?_
    exact K.like_bind (like_finish hc _) fun _ => K.like_pure _

variable {plan : BranchPlan} {policy : SelectorPolicy}

theorem like_runStages
    (hc : ∀ config, plan.params.resolve policy = .ok config → K.Calls W c c' (plan.context config))
    (limit : Option Nat) :
    K.LikeState W (runStages c policy limit plan) (runStages c' policy limit plan) := by
  unfold runStages
  cases hconfig : plan.params.resolve policy with
  | error => exact K.like_pure _
  | ok config =>
    have hcalls := hc config hconfig
    refine K.like_bind (like_attempt _ _ hcalls.checkout) fun checkedOut => ?_
    cases checkedOut with
    | ok => exact like_budgeted hcalls _ _
    | error e =>
      dsimp only
      split
      · exact K.like_pure _
      · exact like_budgeted hcalls _ _

/-- **Branches are alike if their calls are.** Only calls in the context of the branch count. -/
theorem like_runBranch
    (hc : ∀ config, plan.params.resolve policy = .ok config → K.Calls W c c' (plan.context config))
    (limit : Option Nat) :
    K.LikeState W (runBranch c policy limit plan) (runBranch c' policy limit plan) := by
  refine K.like_bind K.like_now fun started => K.like_bind (like_tell _) fun _ => ?_
  refine K.like_bind (like_runStages hc _) fun result => ?_
  cases result with
  | error e =>
    refine K.like_bind (like_tell _) fun _ => K.like_get_bind fun s s' hs => ?_
    rw [hs.records, hs.progress.ledger, hs.runner]
    refine K.like_bind K.like_now fun _ => ?_
    exact K.like_bind (like_tell _) fun _ => K.like_pure _
  | ok r =>
    refine K.like_get_bind fun s s' hs => ?_
    rw [hs.records, hs.progress.ledger, hs.runner]
    refine K.like_bind K.like_now fun _ => ?_
    exact K.like_bind (like_tell _) fun _ => K.like_pure _

end Branch

end Likeness

/-! ## Running alike -/

/-- Running alike is a likeness. -/
def Likeness.running (ω : Type) : Likeness ω where
  Like _ E x y := RunsAs E x y
  like_pure := runsAs_pure
  like_bind := runsAs_bind
  like_now := runsAs_now
  like_modify h := runsAs_modify fun s t hs => (h s t hs).1
  like_get_bind := runsAs_get_bind
  like_within := runsAs_within
  like_onPart hp hp' hpart hset h := runsAs_onPart hp hp' hpart hset h

variable {σ τ : Type} {E : σ → τ → Prop}

theorem runsAs_bounded {x : Timed σ (RunResult α)} {y : Timed τ (RunResult α)} (step : String)
    (limit : Nat) (h : RunsAs E x y) : RunsAs E (bounded step limit x) (bounded step limit y) := by
  have hbounded : (Likeness.running σ).Like id E (bounded step limit x) (bounded step limit y) :=
    Likeness.like_bounded step limit h
  exact hbounded

/-- What the end of a step under the nearer of two deadlines means for whoever bounded it. -/
def boundedEnd (step : String) (limit now : Nat) (deadline : Option Nat) :
    Ended σ (RunResult α) → Ended σ (RunResult α)
  | ⟨.cut, stop, s⟩ =>
    if meets (now + limit * 1000) deadline then ⟨.done (.error (.timeout step limit)), stop, s⟩
    else ⟨.cut, stop, s⟩
  | e => e

theorem runUnder_bounded {deadline : Option Nat} {now : Nat} (step : String) (limit : Nat)
    (x : Timed σ (RunResult α)) (s : σ) (hd : meets now deadline) :
    (bounded step limit x).runUnder deadline now s =
      boundedEnd step limit now deadline
        (x.runUnder (some (nearer (now + limit * 1000) deadline)) now s) := by
  show ((within (limit * 1000) x).andThen _).runUnder deadline now s = _
  rw [runUnder_andThen, runUnder_within _ _ _ _ _ hd]
  obtain ⟨ending, time, s⟩ := x.runUnder (some (nearer (now + limit * 1000) deadline)) now s
  cases ending with
  | done r => rfl
  | broken => rfl
  | cut =>
    by_cases hmeets : meets (now + limit * 1000) deadline = true
    · simp only [limited, boundedEnd, if_pos hmeets]
      rfl
    · simp only [limited, boundedEnd, if_neg hmeets]

theorem mapState_boundedEnd (view : σ → τ) (step : String) (limit now : Nat) (deadline : Option Nat)
    (e : Ended σ (RunResult α)) :
    (boundedEnd step limit now deadline e).mapState view =
      boundedEnd step limit now deadline (e.mapState view) := by
  obtain ⟨ending, time, s⟩ := e
  cases ending with
  | done r => rfl
  | broken => rfl
  | cut =>
    simp only [boundedEnd, Ended.mapState]
    split <;> rfl

/-- Bounding a step on a part of the state is bounding it there. -/
theorem runUnder_bounded_onPart {part : σ → τ} {setPart : τ → σ → σ} (hpart : IsPart part setPart)
    {deadline : Option Nat} {now : Nat} (step : String) (limit : Nat) (x : Timed τ (RunResult α))
    (s : σ) (hd : meets now deadline) :
    (bounded step limit (x.onPart part setPart)).runUnder deadline now s =
      ((bounded step limit x).onPart part setPart).runUnder deadline now s := by
  rw [runUnder_bounded _ _ _ _ hd, runUnder_onPart hpart, runUnder_onPart hpart,
    runUnder_bounded _ _ _ _ hd, mapState_boundedEnd]

section Outside

variable {W : ω → ω' → Prop}

theorem runsAs_bounded_outside {step : String} {limit : Nat} {x : Timed ω (RunResult α)}
    {y : Timed ω' (RunResult α)} (h : RunsAs W (bounded step limit x) (bounded step limit y)) :
    RunsAs (BranchState.Like W) (bounded step limit (BranchState.outside x))
      (bounded step limit (BranchState.outside y)) := by
  intro deadline now s t hd hs
  have hbound : ∀ {ω : Type} (x : Timed ω (RunResult α)) (s : BranchState ω),
      (bounded step limit (BranchState.outside x)).runUnder deadline now s =
        (BranchState.outside (bounded step limit x)).runUnder deadline now s := by
    intro ω x s
    rw [BranchState.outside, BranchState.onProgress,
      runUnder_bounded_onPart BranchState.isPart_progress _ _ _ _ hd, BranchState.outside,
      BranchState.onProgress, runUnder_onPart BranchState.isPart_progress,
      runUnder_onPart BranchState.isPart_progress, Progress.outside,
      runUnder_bounded_onPart Progress.isPart_world _ _ _ _ hd, Progress.outside]
  have houtside : RunsAs (BranchState.Like W) (BranchState.outside (bounded step limit x))
      (BranchState.outside (bounded step limit y)) :=
        Likeness.like_outside (K := Likeness.running ω) h
  rw [hbound, hbound]
  exact houtside deadline now s t hd hs

/-- The calls of a branch run alike, each within the limit that the branch sets to it. Artifacts are
copied to one place. -/
structure Collaborators.RunAs (W : ω → ω' → Prop) (c : Collaborators ω) (c' : Collaborators ω')
    (ctx : BranchContext) : Prop where
  checkout : RunsAs W (c.checkout ctx) (c'.checkout ctx)
  createRunner : ∀ step limit, RunsAs W (bounded step limit (c.createRunner ctx limit))
    (bounded step limit (c'.createRunner ctx limit))
  runTest : ∀ step target limit, RunsAs W (bounded step limit (c.runTest ctx target limit))
    (bounded step limit (c'.runTest ctx target limit))
  collectLogs : ∀ step target limit, RunsAs W (bounded step limit (c.collectLogs ctx target limit))
    (bounded step limit (c'.collectLogs ctx target limit))
  cleanResources : ∀ step target limit,
    RunsAs W (bounded step limit (c.cleanResources ctx target limit))
      (bounded step limit (c'.cleanResources ctx target limit))
  sendEmail : ∀ step build limit, RunsAs W (bounded step limit (c.sendEmail ctx build limit))
    (bounded step limit (c'.sendEmail ctx build limit))
  copyArtifacts : ∀ target, RunsAs W
    (c.copyArtifacts ctx target (Path.join ctx.workdir artifactsDir))
    (c'.copyArtifacts ctx target (Path.join ctx.workdir artifactsDir))

theorem Collaborators.RunAs.calls {c : Collaborators ω} {c' : Collaborators ω'}
    {ctx : BranchContext} (h : RunAs W c c' ctx) : (Likeness.running ω).Calls W c c' ctx where
  checkout := Likeness.like_outside h.checkout
  createRunner _ := runsAs_bounded_outside (h.createRunner _ _)
  runTest _ _ := runsAs_bounded_outside (h.runTest _ _ _)
  collectLogs _ _ := runsAs_bounded_outside (h.collectLogs _ _ _)
  terminal stage _ _ _ := by
    cases stage with
    | cleanResources => exact Likeness.like_outsideProgress (h.cleanResources _ _ _)
    | sendEmail => exact Likeness.like_outsideProgress (h.sendEmail _ _ _)
  copyArtifacts _ _ := Likeness.like_outsideProgress (runsAs_bounded _ _ (h.copyArtifacts _))

/-- Branches run alike if their calls do. -/
theorem runsAs_runBranch {c : Collaborators ω} {c' : Collaborators ω'} {plan : BranchPlan}
    {policy : SelectorPolicy}
    (h : ∀ config, plan.params.resolve policy = .ok config →
      Collaborators.RunAs W c c' (plan.context config))
    (limit : Option Nat) :
    RunsAs (BranchState.Like W) (runBranch c policy limit plan) (runBranch c' policy limit plan) :=
  Likeness.like_runBranch (K := Likeness.running ω) (fun config hconfig => (h config hconfig).calls)
    limit

end Outside

end Stagehand
