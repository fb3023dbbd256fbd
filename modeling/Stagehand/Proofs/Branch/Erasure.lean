import Stagehand.Proofs.Branch.Likeness

/-!
# Watching changes nothing

Observed collaborators, seen without the notes, run as the collaborators themselves do; so does a
branch that is run with them, whatever the collaborators do, whether or not they break down.

Main result: `BranchPlan.runWithin_erase`.
-/

namespace Stagehand

open Rehearsal (Call CallNote)
open Timed

variable {σ ω α : Type}

/-! ## Collaborators -/

/-- A world with notes, and the same world without. -/
def Noted.Shows (w : Noted ω) (world : ω) : Prop := w.world = world

theorem Noted.runsAs_of_mapState {x : Timed (Noted ω) α} {y : Timed ω α}
    (h : ∀ deadline now w, meets now deadline →
      (x.runUnder deadline now w).mapState world = y.runUnder deadline now w.world) :
    RunsAs Shows x y := by
  rintro deadline now w _ hd rfl
  exact Ended.matches_view.2 (h deadline now w hd)

theorem mapState_unseen (body : Timed ω α) (deadline : Option Nat) (now : Nat) (w : Noted ω) :
    ((Noted.unseen body).runUnder deadline now w).mapState Noted.world =
      body.runUnder deadline now w.world := by
  rw [Noted.unseen, runUnder_onPart Noted.isPart_world]
  rfl

theorem time_of_cut {x : Timed σ α} {stop now : Nat} {s : σ}
    (h : (x.runUnder (some stop) now s).ending = .cut) :
    (x.runUnder (some stop) now s).time = stop := by
  induction x generalizing now s with
  | done => cases h
  | broken => cases h
  | look next ih => exact ih now s h
  | put t next ih => exact ih h
  | pause w next ih =>
    revert h
    simp only [runUnder]
    split
    · split
      · exact fun h => ih h
      · split
        · exact fun h => ih h
        · exact fun _ => rfl
    · exact fun _ => rfl

theorem runUnder_await_none {deadline : Option Nat} {now : Nat} {w : Noted ω} (call : Call) :
    (Noted.await call (none : Option α)).runUnder deadline now w =
      ⟨.cut, deadline.getD now, w.add (.expired call now)⟩ := by
  show (⟨.cut, deadline.getD now, if now < deadline.getD now then _ else _⟩ : Ended (Noted ω) α) = _
  rw [ite_self]

/-- The end of a step that is watched within a limit, by the end of the step itself under it. -/
def watchedEnd (call : Call) (limit now : Nat) (deadline : Option Nat) (w : Noted ω) :
    Ended ω α → Ended (Noted ω) α
  | ⟨.done a, time, world⟩ => ⟨.done a, time, { w with world }⟩
  | ⟨.broken, time, world⟩ => ⟨.broken, time, Noted.add (.dropped call) { w with world }⟩
  | ⟨.cut, time, world⟩ =>
    if meets (now + limit * 1000) deadline then
      ⟨.cut, deadline.getD time, Noted.add (.expired call time) { w with world }⟩
    else ⟨.cut, time, Noted.add (.dropped call) { w with world }⟩

theorem runUnder_watch {deadline : Option Nat} {now : Nat} {w : Noted ω} (call : Call)
    (body : Timed ω α) (limit : Nat) (hd : meets now deadline) :
    (Noted.watch call body (some limit)).runUnder deadline now w =
      watchedEnd call limit now deadline w
        (body.runUnder (some (nearer (now + limit * 1000) deadline)) now w.world) := by
  simp only [Noted.watch, runUnder_bind, runUnder_whenAbandoned, runUnder_within _ _ _ _ _ hd,
    Noted.unseen, runUnder_onPart Noted.isPart_world]
  rcases body.runUnder (some (nearer (now + limit * 1000) deadline)) now w.world with
    ⟨a | _ | _, time, world⟩
  · rfl
  · by_cases hmeets : meets (now + limit * 1000) deadline = true <;>
      simp [limited, watchedEnd, hmeets, runUnder_await_none, Ended.mapState]
  · rfl

/-- Under a deadline no later than its own limit, a watched step runs as it does unwatched. -/
theorem mapState_watch (call : Call) (body : Timed ω α) {limit stop now : Nat} {w : Noted ω}
    (hnow : now ≤ stop) (hstop : stop ≤ now + limit * 1000) :
    ((Noted.watch call body (some limit)).runUnder (some stop) now w).mapState Noted.world =
      body.runUnder (some stop) now w.world := by
  have hd : meets now (some stop) := decide_eq_true hnow
  have hnearer : nearer (now + limit * 1000) (some stop) = stop := Nat.min_eq_right hstop
  have hcut : (body.runUnder (some stop) now w.world).ending = .cut →
      (body.runUnder (some stop) now w.world).time = stop := time_of_cut
  rw [runUnder_watch _ _ _ hd, hnearer]
  generalize body.runUnder (some stop) now w.world = e at hcut ⊢
  obtain ⟨ending, time, world⟩ := e
  cases ending with
  | done a => rfl
  | broken => rfl
  | cut =>
    -- The observer goes on waiting for the caller, who is due at the same time.
    obtain rfl : time = stop := hcut rfl
    simp only [watchedEnd]
    split <;> rfl

/-- The end of a call that is noted: its return is noted too. -/
def notedEnd (call : Call) (address : α → Option Network.Address) :
    Ended (Noted ω) (RunResult α) → Ended (Noted ω) (RunResult α)
  | ⟨.done r, time, w⟩ => ⟨.done r, time, w.add (.returned call (r.map address) time)⟩
  | e => e

theorem mapState_notedEnd (call : Call) (address : α → Option Network.Address)
    (e : Ended (Noted ω) (RunResult α)) :
    (notedEnd call address e).mapState Noted.world = e.mapState Noted.world := by
  rcases e with ⟨r | _ | _, time, w⟩ <;> rfl

theorem runUnder_noting (call : Call) (ctx : BranchContext) (note : CallNote → CallNote)
    (address : α → Option Network.Address) (body : Timed ω (RunResult α)) (deadline : Option Nat)
    (now : Nat) (w : Noted ω) :
    (Noted.noting call ctx note address body).runUnder deadline now w =
      notedEnd call address
        ((Noted.watch call body (note { call, time := now, context := ctx }).limit).runUnder
          deadline now (w.add (.called (note { call, time := now, context := ctx })))) := by
  show ((Noted.watch call body _).andThen _).runUnder deadline now _ = _
  rw [runUnder_andThen]
  generalize (Noted.watch call body (note { call, time := now, context := ctx }).limit).runUnder
    deadline now (w.add (.called (note { call, time := now, context := ctx }))) = e
  rcases e with ⟨r | _ | _, time, s⟩ <;> rfl

/-- A call that is given no limit is seen only to begin and to return. -/
theorem runsAs_noting_unlimited (call : Call) (ctx : BranchContext) (note : CallNote → CallNote)
    (address : α → Option Network.Address) (body : Timed ω (RunResult α))
    (hlimit : ∀ time, (note { call, time, context := ctx }).limit = none) :
    RunsAs Noted.Shows (Noted.noting call ctx note address body) body := by
  refine Noted.runsAs_of_mapState fun deadline now w _ => ?_
  rw [runUnder_noting, mapState_notedEnd, hlimit]
  exact mapState_unseen body deadline now _

/-- A call within a limit is bounded by its caller and by the observer alike. -/
theorem runsAs_bounded_noting (call : Call) (ctx : BranchContext) (note : CallNote → CallNote)
    (address : α → Option Network.Address) (body : Timed ω (RunResult α)) (step : String)
    (limit : Nat) (hlimit : ∀ time, (note { call, time, context := ctx }).limit = some limit) :
    RunsAs Noted.Shows (bounded step limit (Noted.noting call ctx note address body))
      (bounded step limit body) := by
  refine Noted.runsAs_of_mapState fun deadline now w hd => ?_
  have hnow : meets now (some (nearer (now + limit * 1000) deadline)) :=
    meets_nearer.2 ⟨Nat.le_add_right _ _, hd⟩
  have hself : nearer (now + limit * 1000) deadline ≤ now + limit * 1000 := by
    cases deadline with
    | none => exact Nat.le_refl _
    | some stop => exact Nat.min_le_left _ _
  rw [runUnder_bounded _ _ _ _ hd, runUnder_bounded _ _ _ _ hd, mapState_boundedEnd,
    runUnder_noting, mapState_notedEnd, hlimit]
  exact congrArg _ (mapState_watch call body (of_decide_eq_true hnow) hself)

/-- Observed collaborators run as they do unobserved. -/
theorem Collaborators.runAs_noted (c : Collaborators ω) (ctx : BranchContext) :
    Collaborators.RunAs Noted.Shows c.noted c ctx where
  checkout := runsAs_noting_unlimited .checkout ctx id (fun _ => none) _ fun _ => rfl
  createRunner step limit :=
    runsAs_bounded_noting .createRunner ctx (fun n => { n with limit := some limit }) some _ step
      limit fun _ => rfl
  runTest step target limit :=
    runsAs_bounded_noting .runTest ctx
      (fun n => { n with limit := some limit, target := some target }) (fun _ => none) _ step limit
      fun _ => rfl
  collectLogs step target limit :=
    runsAs_bounded_noting .collectLogs ctx
      (fun n => { n with limit := some limit, target := some target }) (fun _ => none) _ step limit
      fun _ => rfl
  cleanResources step target limit :=
    runsAs_bounded_noting .cleanResources ctx
      (fun n => { n with limit := some limit, target := some target }) (fun _ => none) _ step limit
      fun _ => rfl
  sendEmail step build limit :=
    runsAs_bounded_noting .sendEmail ctx
      (fun n => { n with limit := some limit, build := some build }) (fun _ => none) _ step limit
      fun _ => rfl
  copyArtifacts target :=
    runsAs_noting_unlimited .copyArtifacts ctx
      (fun n =>
        { n with target := some target, destination := some (Path.join ctx.workdir artifactsDir) })
      (fun _ => none) _ fun _ => rfl

/-! ## Sweeps -/

/-- Progress without the notes. -/
def Progress.unnoted (p : Progress (Noted ω)) : Progress ω := ⟨p.ledger, p.events, p.world.world⟩

theorem Progress.unnoted_eq_of_like {p : Progress (Noted ω)} {q : Progress ω}
    (h : p.Like Noted.Shows q) : p.unnoted = q := by
  obtain ⟨ledger, events, world⟩ := p
  obtain ⟨ledger', events', world'⟩ := q
  obtain ⟨rfl, rfl, rfl⟩ := h
  rfl

theorem runUnder_sweep_erase (c : Collaborators ω) (ctx : BranchContext) (budget : TimeBudget)
    (target : Target) (build : BuildResult) (destination : String)
    {deadline : Option Nat} {now : Nat}
    (hd : meets now deadline) (p : Progress (Noted ω)) :
    ((sweep c.noted ctx budget target build destination).runUnder deadline now p).mapState
        Progress.unnoted =
      (sweep c ctx budget target build destination).runUnder deadline now p.unnoted := by
  have hcopy : RunsAs Noted.Shows (c.noted.copyArtifacts ctx target destination)
      (c.copyArtifacts ctx target destination) :=
    runsAs_noting_unlimited .copyArtifacts ctx
      (fun n => { n with target := some target, destination := some destination }) (fun _ => none) _
      fun _ => rfl
  have hrun : RunsAs (Progress.Like Noted.Shows) (sweep c.noted ctx budget target build destination)
      (sweep c ctx budget target build destination) :=
    Likeness.like_sweep (K := Likeness.running (Noted ω)) (c.runAs_noted ctx).calls target build
      fun _ => Likeness.like_outsideProgress (runsAs_bounded _ _ hcopy)
  refine Ended.matches_view.1 ?_
  exact (hrun deadline now p p.unnoted hd ⟨rfl, rfl, rfl⟩).mono fun _ _ =>
    Progress.unnoted_eq_of_like

/-! ## Branches -/

/-- The state of a branch without the notes. -/
def BranchState.unnoted (s : BranchState (Noted ω)) : BranchState ω :=
  { s with progress := s.progress.unnoted }

theorem BranchState.unnoted_eq_of_like {s : BranchState (Noted ω)} {t : BranchState ω}
    (h : s.Like Noted.Shows t) : s.unnoted = t := by
  obtain ⟨⟨ledger, events, world⟩, records, inFlight, target, runner⟩ := s
  obtain ⟨⟨ledger', events', world'⟩, records', inFlight', target', runner'⟩ := t
  obtain ⟨⟨rfl, rfl, rfl⟩, rfl, rfl, rfl, rfl⟩ := h
  rfl

/-- **Watching changes nothing**: without its notes, an observed branch is the branch itself. -/
theorem BranchPlan.runWithin_erase (plan : BranchPlan) (c : Collaborators ω)
    (policy : SelectorPolicy) (limit : Option Nat) (world : ω) :
    (plan.runWithin c.noted policy limit ⟨world, []⟩).mapState BranchState.unnoted =
      plan.runWithin c policy limit world := by
  have hcalls : ∀ config, plan.params.resolve policy = .ok config →
      Collaborators.RunAs Noted.Shows c.noted c (plan.context config) :=
    fun config _ => c.runAs_noted _
  have hrun := runsAs_runBranch hcalls limit none 0 { progress := { world := ⟨world, []⟩ } }
    { progress := { world } } rfl ⟨⟨rfl, rfl, rfl⟩, rfl, rfl, rfl, rfl⟩
  exact Ended.matches_view.1 (hrun.mono fun _ _ => BranchState.unnoted_eq_of_like)

end Stagehand
