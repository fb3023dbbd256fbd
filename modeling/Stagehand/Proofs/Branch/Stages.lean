import Stagehand.Proofs.Branch.History

/-!
# The stages of a branch follow its history

Run from the state that some steps left, each stage of the main sequence leaves the state of one
more step, or is cut: the state follows the history. A stage whose steps never break down has no
other end.

Main results: `reaches_runTerminal`, what running a terminal stage does; `reaches_mainStages`,
what the stages under the branch limit come to.
-/

namespace Stagehand

open Rehearsal (Call CallNote)
open Timed

variable {ω α : Type} {deadline : Option Nat} {now : Nat}

/-! ## Parts of the state -/

theorem Progress.isPart_world : IsPart (Progress.world (ω := ω)) fun world p => { p with world } :=
  ⟨fun _ _ => rfl, fun _ => rfl, fun _ _ _ => rfl⟩

theorem BranchState.isPart_progress :
    IsPart (BranchState.progress (ω := ω)) fun progress s => { s with progress } :=
  ⟨fun _ _ => rfl, fun _ => rfl, fun _ _ _ => rfl⟩

theorem reaches_bounded_onPart {σ τ : Type} {part : σ → τ} {setPart : τ → σ → σ} {s : σ}
    {Q : RunResult α → Nat → σ → Prop} {C : Nat → σ → Prop} (h : IsPart part setPart)
    (step : String) (limit : Nat) (x : Timed τ (RunResult α)) (hd : meets now deadline) :
    (bounded step limit (x.onPart part setPart)).Reaches deadline now s Q C ↔
      (bounded step limit x).Reaches deadline now (part s) (fun r time t => Q r time (setPart t s))
        fun time t => C time (setPart t s) := by
  rw [reaches_bounded step limit _ hd, reaches_bounded step limit _ hd, reaches_onPart h]

namespace BranchState

def begun (axis : String) (stage : Stage) (now : Nat) (s : BranchState ω) : BranchState ω :=
  { s with
    progress := { s.progress with events := s.progress.events ++ [.stageStarted axis stage] }
    inFlight := some (stage, now) }

/-- The stage in flight is over. -/
def concluded (axis : String) (record : StageRecord) (s : BranchState ω) : BranchState ω :=
  { s with
    progress := { s.progress with events := s.progress.events ++ [.stageCompleted axis record] }
    records := s.records ++ [record]
    inFlight := none }

variable {s : BranchState ω}

@[simp] theorem reaches_tell {Q : Unit → Nat → BranchState ω → Prop}
    {C : Nat → BranchState ω → Prop} (e : Event) : (tell e).Reaches deadline now s Q C ↔
      Q () now { s with progress := { s.progress with events := s.progress.events ++ [e] } } := by
  rw [tell, onProgress, reaches_onPart isPart_progress, Progress.tell, reaches_modify]

@[simp] theorem reaches_record {Q : Unit → Nat → BranchState ω → Prop}
    {C : Nat → BranchState ω → Prop} (axis : String) (r : StageRecord) :
    (record axis r).Reaches deadline now s Q C ↔
      Q () now
        { s with
          progress := { s.progress with events := s.progress.events ++ [.stageCompleted axis r] }
          records := s.records ++ [r] } := by
  simp only [record, keep, reaches_bind, reaches_tell, reaches_modify]

theorem reaches_attempt {Q : RunResult α → Nat → BranchState ω → Prop}
    {C : Nat → BranchState ω → Prop} (axis : String) (stage : Stage)
    (body : Timed (BranchState ω) (RunResult α)) :
    (attempt axis stage body).Reaches deadline now s Q C ↔
      body.Reaches deadline now (s.begun axis stage now)
        (fun r time s => Q r time (s.concluded axis (.ofResult stage (time - now) r))) C := by
  simp only [attempt, reaches_bind, reaches_now, reaches_modify, reaches_tell, reaches_record,
    reaches_pure, begun, concluded]

end BranchState

/-! ## Attempts -/

namespace BranchState

/-- The state after one more attempt, before the branch heeds what came of it. -/
def attempting (axis testId : String) (steps : List StageStep) (a : Attempt) (world : ω) :
    BranchState (Noted ω) :=
  let s := after axis testId steps world
  { s with
    progress := s.progress.grown [.stageStarted axis a.stage, .stageCompleted axis a.record] a.notes
      a.stage.terminal?.toList world
    records := s.records ++ [a.record] }

variable {axis testId : String} {steps : List StageStep} {a : Attempt} {world : ω}

theorem after_attempted :
    after axis testId (steps ++ [.attempted a]) world =
      let s := attempting axis testId steps a world
      { s with
        progress :=
          { s.progress with
            events := s.progress.events ++ (StageStep.attempted a).warnings axis }
        target := targetAfter (steps ++ [.attempted a])
        runner := runnerAfter (steps ++ [.attempted a]) } := by
  simp [attempting, after, Progress.grown, ledgerAfter_snoc, StageStep.events, StageStep.notes,
    StageStep.record, StageStep.marked?]

theorem after_attempted_of_none (haddress : (StageStep.attempted a).address? = none) :
    after axis testId (steps ++ [.attempted a]) world =
      let s := attempting axis testId steps a world
      { s with
        progress :=
          { s.progress with
            events := s.progress.events ++ (StageStep.attempted a).warnings axis } } := by
  have hrunner : runnerAfter (steps ++ [.attempted a]) = runnerAfter steps := by
    rw [runnerAfter_snoc, haddress, Option.or_none]
  rw [after_attempted, hrunner, targetAfter_snoc_of_none haddress]
  simp [attempting, after]

/-- Only the answer to the creation of a runner changes how a branch goes on. -/
theorem after_attempted_of_ne (h : a.stage ≠ .createRunner) :
    after axis testId (steps ++ [.attempted a]) world = attempting axis testId steps a world := by
  have hcreation := StageStep.creation?_attempted h
  have haddress : (StageStep.attempted a).address? = none := by
    rw [StageStep.address?, hcreation]
  rw [after_attempted_of_none haddress, StageStep.warnings, hcreation]
  simp

theorem after_snoc_of_none {step : StageStep} (hcreation : step.creation? = none)
    (hmarked : step.marked? = none) :
    after axis testId (steps ++ [step]) world =
      let s := after axis testId steps world
      { s with
        progress := s.progress.grown (step.events axis) step.notes [] world
        records := s.records ++ [step.record] } := by
  have haddress : step.address? = none := by
    rw [StageStep.address?, hcreation]
  simp [after, Progress.grown, ledgerAfter_snoc, hmarked, targetAfter_snoc_of_none haddress,
    runnerAfter_snoc, haddress]

end BranchState

open BranchState

section Ends

variable (ctx : BranchContext) (budget : TimeBudget) (deadline : Option Nat)
  (steps : List StageStep) (now : Nat)

/-- A stage is got over. -/
def Took (stage : Stage) (time : Nat) (s : BranchState (Noted ω)) : Prop :=
  ∃ step world, Takes ctx budget deadline steps now stage step time ∧
    s = after ctx.axis ctx.testId (steps ++ [step]) world

def WasCut (stage : Stage) (stop : Nat) (s : BranchState (Noted ω)) : Prop :=
  ∃ call world, Cuts ctx budget deadline steps now stage call stop ∧
    s = cutIn ctx.axis ctx.testId steps stage call world

/-- Stages are got over one after the other. -/
def Went (stages : List Stage) (time : Nat) (s : BranchState (Noted ω)) : Prop :=
  ∃ taken world, Path ctx budget deadline steps now stages taken time ∧
    s = after ctx.axis ctx.testId (steps ++ taken) world

/-- One of several stages is cut, when those before it are over. -/
def Stopped (stages : List Stage) (stop : Nat) (s : BranchState (Noted ω)) : Prop :=
  ∃ early stage late taken time call world, stages = early ++ stage :: late ∧
    Path ctx budget deadline steps now early taken time ∧
    Cuts ctx budget deadline (steps ++ taken) time stage call stop ∧
    s = cutIn ctx.axis ctx.testId (steps ++ taken) stage call world

end Ends

section Rules

variable {c : Collaborators ω} {ctx : BranchContext} {budget : TimeBudget} {steps : List StageStep}
  {world : ω}

/-- A call within a limit is an attempt, or is dropped before its limit. -/
theorem reaches_bounded_attempt (call : Call) (note : CallNote → CallNote)
    (address : α → Option Network.Address) {body : Timed ω (RunResult α)} {w : Noted ω}
    (stage : Stage) {limit : Nat} {n : CallNote} (hbody : body.Unbroken) (hd : meets now deadline)
    (hnote : note { call, time := now, context := ctx } = n) (hname : n.call = call)
    (htime : n.time = now) (hlimit : n.limit = some limit) :
    (bounded stage.name limit (Noted.noting call ctx note address body)).Reaches deadline now w
      (fun r time w' => ∃ (a : Attempt) (world : ω), a.IsAt stage n deadline ∧ a.stop = time ∧
        r.map address = a.result ∧ w' = ⟨world, w.notes ++ a.notes⟩)
      (fun stop w' => IsDropped n deadline stop ∧
        ∃ world, w' = ⟨world, w.notes ++ [.called n, .dropped n.call]⟩) := by
  subst hnote
  refine reaches_bounded_noting hbody hd hlimit
    (fun ending r time world hwithin hle hexpired hr => ?_) fun world stop hstop hle hlt => ?_
  · let a : Attempt := ⟨stage, note { call, time := now, context := ctx }, ending, time⟩
    have hresult : r.map address = a.result := by
      rw [hr, Attempt.result, hlimit, Option.getD_some]
    have htimely : a.Timely := by
      refine ⟨htime ▸ hwithin.1, fun limit' hlimit' => ?_⟩
      obtain rfl : limit = limit' := by simpa [a, hlimit] using hlimit'
      rw [show a.call.time = now from htime]
      exact ⟨hle, hexpired⟩
    exact ⟨a, world, ⟨rfl, rfl, htimely, hwithin.2⟩, rfl, hresult,
      by simp [a, Attempt.notes, hname]⟩
  · refine ⟨⟨hstop, Nat.le_trans (Nat.le_of_eq htime) hle, fun limit' hlimit' => ?_⟩,
      world, by rw [hname]⟩
    obtain rfl : limit = limit' := by simpa [hlimit] using hlimit'
    rw [htime]
    exact hlt

/-- What an attempt at a stage comes to, if its call is the one that is due. -/
theorem reaches_attemptBounded_noting (call : Call) (note : CallNote → CallNote)
    (address : α → Option Network.Address) {body : Timed ω (RunResult α)} {stage : Stage}
    {limit : Nat} {n : CallNote} (hbody : body.Unbroken) (hd : meets now deadline)
    (hcall : callAfter ctx budget steps now stage = some n)
    (hnote : note { call, time := now, context := ctx } = n) (hname : n.call = call)
    (hlimit : n.limit = some limit) (hterminal : stage.terminal? = none) :
    (attemptBounded ctx.axis stage limit (Noted.noting call ctx note address body)).Reaches
      deadline now (after ctx.axis ctx.testId steps world)
      (fun r time s => ∃ a world, Takes ctx budget deadline steps now stage (.attempted a) time ∧
        r.map address = a.result ∧ s = attempting ctx.axis ctx.testId steps a world)
      (WasCut ctx budget deadline steps now stage) := by
  have htime := time_of_callAfter hcall
  rw [attemptBounded, reaches_attempt, BranchState.outside, BranchState.onProgress,
    reaches_bounded_onPart isPart_progress _ _ _ hd, Progress.outside,
    reaches_bounded_onPart Progress.isPart_world _ _ _ hd]
  refine (reaches_bounded_attempt call note address stage hbody hd hnote hname htime hlimit).mono
    ?_ ?_
  · rintro r time w ⟨a, world, ha, rfl, hr, rfl⟩
    have hrecord : StageRecord.ofResult stage (a.stop - now) r = a.record := by
      rw [Attempt.record, ← hr, StageRecord.ofResult_map, ha.hstage, ha.hcall, htime]
    refine ⟨a, world, .attempted hcall ha, hr, ?_⟩
    simp [concluded, begun, attempting, after, Progress.grown, hrecord, ha.hstage, hterminal]
  · rintro stop w ⟨hdropped, world, rfl⟩
    refine ⟨n, world, ⟨hcall, hdropped⟩, ?_⟩
    simp [begun, cutIn, after, Progress.grown, htime]

/-- A stage that is attempted for its call alone is got over. -/
theorem reaches_took (call : Call) (note : CallNote → CallNote)
    (address : α → Option Network.Address) {body : Timed ω (RunResult α)} {stage : Stage}
    {limit : Nat} (hbody : body.Unbroken) (hd : meets now deadline) {n : CallNote}
    (hcall : callAfter ctx budget steps now stage = some n)
    (hnote : note { call, time := now, context := ctx } = n) (hname : n.call = call)
    (hlimit : n.limit = some limit) (hterminal : stage.terminal? = none)
    (hrunner : stage ≠ .createRunner) :
    (attemptBounded ctx.axis stage limit (Noted.noting call ctx note address body)).Reaches
      deadline now (after ctx.axis ctx.testId steps world)
      (fun _ => Took ctx budget deadline steps now stage)
      (WasCut ctx budget deadline steps now stage) := by
  refine (reaches_attemptBounded_noting call note address hbody hd hcall hnote hname hlimit
    hterminal).mono ?_ fun _ _ h => h
  rintro r time s ⟨a, world, htakes, -, rfl⟩
  have hstage : a.stage = stage := by
    cases htakes with
    | attempted _ ha => exact ha.hstage
  exact ⟨.attempted a, world, htakes, (after_attempted_of_ne (hstage ▸ hrunner)).symm⟩

theorem reaches_runnerStage (hc : c.Unbreaking) (hd : meets now deadline)
    (hrunner : runnerAfter steps = none) (hrefusal : refusalAfter steps = none) :
    (runnerStage c.noted ctx budget).Reaches deadline now (after ctx.axis ctx.testId steps world)
      (fun unusable time s => ∃ step world,
        Takes ctx budget deadline steps now .createRunner step time ∧
          unusable = refusalAfter (steps ++ [step]) ∧
          s = after ctx.axis ctx.testId (steps ++ [step]) world)
      (WasCut ctx budget deadline steps now .createRunner) := by
  rw [runnerStage]
  by_cases hbackend : ctx.config.backend.supportsRunner = true
  · rw [if_pos hbackend, reaches_bind]
    have hcall : callAfter ctx budget steps now .createRunner = some
        { call := .createRunner, time := now, context := ctx
          limit := some (budget.limit .runnerProvision) } := if_pos hbackend
    refine (reaches_attemptBounded_noting .createRunner
      (fun n => { n with limit := some (budget.limit .runnerProvision) }) some
      (hc.createRunner ctx (budget.limit .runnerProvision)) hd hcall rfl rfl rfl rfl).mono
      ?_ fun _ _ h => h
    -- Later stages heed an address that was given, and a failure that is fatal.
    rintro r time s ⟨a, world, htakes, hr, rfl⟩
    have hcreation : (StageStep.attempted a).creation? = some (r.map some) := by
      cases htakes with
      | attempted _ ha => rw [hr]; exact if_pos ha.hstage
    cases r with
    | ok address =>
      have haddress : (StageStep.attempted a).address? = some address := by
        rw [StageStep.address?, hcreation]
        rfl
      have hsome : runnerAfter (steps ++ [.attempted a]) = some address := by
        rw [runnerAfter_snoc, hrunner, haddress, Option.none_or]
      simp only [reaches_bind, reaches_modify, reaches_pure]
      refine ⟨_, world, htakes, ?_, ?_⟩
      · rw [refusalAfter_snoc, hrefusal, StageStep.refusal?, hcreation]
        rfl
      · rw [after_attempted, StageStep.warnings, hcreation, targetAfter, hsome]
        simp [attempting, Except.map]
    | error e =>
      have haddress : (StageStep.attempted a).address? = none := by
        rw [StageStep.address?, hcreation]
        rfl
      have hrefused : refusalAfter (steps ++ [.attempted a]) =
          if e.isFatal then some e else none := by
        rw [refusalAfter_snoc, hrefusal, StageStep.refusal?, hcreation]
        rfl
      dsimp only
      by_cases hfatal : e.isFatal = true
      · rw [if_pos hfatal, reaches_pure]
        refine ⟨_, world, htakes, ?_, ?_⟩
        · rw [hrefused, if_pos hfatal]
        · rw [after_attempted_of_none haddress, StageStep.warnings, hcreation]
          simp [Except.map, hfatal]
      · rw [if_neg hfatal, reaches_bind, reaches_tell, reaches_pure]
        refine ⟨_, world, htakes, ?_, ?_⟩
        · rw [hrefused, if_neg hfatal]
        · rw [after_attempted_of_none haddress, StageStep.warnings, hcreation]
          simp [Except.map, hfatal]
  · have hnone : ctx.config.backend.supportsRunner = false := by simpa using hbackend
    rw [if_neg hbackend]
    simp only [reaches_bind, reaches_modify, reaches_pure, keep]
    refine ⟨_, world, .passedOver rfl hnone, ?_, ?_⟩
    · rw [refusalAfter_snoc, hrefusal]
      rfl
    · rw [after_snoc_of_none rfl rfl]
      simp [after, Progress.grown, StageStep.events, StageStep.notes, StageStep.record]

theorem reaches_testStage (hc : c.Unbreaking) (hd : meets now deadline) :
    (testStage c.noted ctx budget (refusalAfter steps)).Reaches deadline now
      (after ctx.axis ctx.testId steps world) (fun _ => Took ctx budget deadline steps now .runTest)
      (WasCut ctx budget deadline steps now .runTest) := by
  cases hrefusal : refusalAfter steps with
  | none =>
    have hcall : callAfter ctx budget steps now .runTest = some
        { call := .runTest, time := now, context := ctx, target := some (targetAfter steps)
          limit := some (budget.limit .testRun) } := by
      simp [callAfter, hrefusal]
    simp only [testStage, reaches_bind, reaches_get, reaches_pure]
    exact reaches_took .runTest
      (fun n =>
        { n with limit := some (budget.limit .testRun), target := some (targetAfter steps) })
      (fun _ => none) (hc.runTest ctx (targetAfter steps) (budget.limit .testRun)) hd
      hcall rfl rfl rfl rfl (by simp)
  | some reason =>
    rw [testStage, reaches_record]
    refine ⟨_, world, .refused rfl hrefusal, ?_⟩
    rw [after_snoc_of_none rfl rfl]
    simp [after, Progress.grown, StageStep.events, StageStep.notes, StageStep.record]

theorem reaches_logStage (hc : c.Unbreaking) (hd : meets now deadline) :
    (logStage c.noted ctx budget).Reaches deadline now (after ctx.axis ctx.testId steps world)
      (fun _ => Took ctx budget deadline steps now .collectLogs)
      (WasCut ctx budget deadline steps now .collectLogs) := by
  simp only [logStage, reaches_bind, reaches_get, reaches_pure]
  exact reaches_took .collectLogs
    (fun n =>
      { n with limit := some (budget.limit .logCollect), target := some (targetAfter steps) })
    (fun _ => none) (hc.collectLogs ctx (targetAfter steps) (budget.limit .logCollect)) hd
    rfl rfl rfl rfl rfl (by simp)

/-! ## Stages in a row -/

theorem Takes.meets {stage : Stage} {step : StageStep} {time : Nat}
    (h : Takes ctx budget deadline steps now stage step time) (hd : meets now deadline) :
    Timed.meets time deadline := by
  cases h with
  | attempted _ ha => exact ha.hmeets
  | passedOver => exact hd
  | refused => exact hd

theorem Takes.stage_eq {stage : Stage} {step : StageStep} {time : Nat}
    (h : Takes ctx budget deadline steps now stage step time) : step.stage = stage := by
  cases h with
  | attempted _ ha => rw [StageStep.stage_attempted, ha.hstage]
  | passedOver hstage => exact hstage.symm
  | refused hstage => exact hstage.symm

/-- A stage, and then others, in the state that its step left. -/
theorem reaches_went_cons {β : Type} {x : Timed (BranchState (Noted ω)) β}
    {f : β → Timed (BranchState (Noted ω)) α} {P : β → StageStep → Prop} {stage : Stage}
    {rest : List Stage} (hd : meets now deadline)
    (hx : x.Reaches deadline now (after ctx.axis ctx.testId steps world)
      (fun b time s => ∃ step world,
        Takes ctx budget deadline steps now stage step time ∧ P b step ∧
        s = after ctx.axis ctx.testId (steps ++ [step]) world)
      (WasCut ctx budget deadline steps now stage))
    (hf : ∀ b step time world, Takes ctx budget deadline steps now stage step time → P b step →
      Timed.meets time deadline →
      (f b).Reaches deadline time (after ctx.axis ctx.testId (steps ++ [step]) world)
        (fun _ => Went ctx budget deadline (steps ++ [step]) time rest)
        (Stopped ctx budget deadline (steps ++ [step]) time rest)) :
    (x >>= f).Reaches deadline now (after ctx.axis ctx.testId steps world)
      (fun _ => Went ctx budget deadline steps now (stage :: rest))
      (Stopped ctx budget deadline steps now (stage :: rest)) := by
  rw [reaches_bind]
  refine hx.mono ?_ ?_
  · rintro b time s ⟨step, world, htakes, hp, rfl⟩
    refine (hf b step time world htakes hp (htakes.meets hd)).mono ?_ ?_
    · rintro _ last s ⟨taken, world, hpath, rfl⟩
      exact ⟨step :: taken, world, .cons htakes hpath, by simp⟩
    · rintro stop s ⟨early, cutStage, late, taken, last, call, world, rfl, hpath, hcuts, rfl⟩
      have hassoc : steps ++ [step] ++ taken = steps ++ step :: taken := by simp
      rw [hassoc] at hcuts ⊢
      exact ⟨stage :: early, cutStage, late, step :: taken, last, call, world, rfl,
        .cons htakes hpath, hcuts, rfl⟩
  · rintro stop s ⟨call, world, hcuts, rfl⟩
    have hnil : steps ++ [] = steps := List.append_nil steps
    exact ⟨[], stage, rest, [], now, call, world, rfl, .nil, hnil.symm ▸ hcuts, by rw [hnil]⟩

theorem reaches_took_cons {β : Type} {x : Timed (BranchState (Noted ω)) β}
    {f : β → Timed (BranchState (Noted ω)) α} {stage : Stage} {rest : List Stage}
    (hd : meets now deadline)
    (hx : x.Reaches deadline now (after ctx.axis ctx.testId steps world)
      (fun _ => Took ctx budget deadline steps now stage)
      (WasCut ctx budget deadline steps now stage))
    (hf : ∀ b step time world, Takes ctx budget deadline steps now stage step time →
      Timed.meets time deadline →
      (f b).Reaches deadline time (after ctx.axis ctx.testId (steps ++ [step]) world)
        (fun _ => Went ctx budget deadline (steps ++ [step]) time rest)
        (Stopped ctx budget deadline (steps ++ [step]) time rest)) :
    (x >>= f).Reaches deadline now (after ctx.axis ctx.testId steps world)
      (fun _ => Went ctx budget deadline steps now (stage :: rest))
      (Stopped ctx budget deadline steps now (stage :: rest)) := by
  refine reaches_went_cons (P := fun _ _ => True) hd (hx.mono ?_ fun _ _ h => h)
    fun b step time world htakes _ => hf b step time world htakes
  rintro b time s ⟨step, world, htakes, hs⟩
  exact ⟨step, world, htakes, trivial, hs⟩

/-! ## Terminal stages -/

/-- **Running a terminal stage** marks it, unless it is dropped before its limit. -/
theorem reaches_runTerminal (hc : c.Unbreaking) (hd : meets now deadline) {p : Progress (Noted ω)}
    (target : Target) (build : BuildResult) (stage : TerminalStage) :
    (runTerminal c.noted ctx budget target build stage).Reaches deadline now p
      (fun r time p' => ∃ (a : Attempt) (world : ω),
        a.IsAt stage.toStage (terminalCall ctx budget target build now stage) deadline ∧
        a.stop = time ∧ r.map (fun _ => none) = a.result ∧
        p' = p.grown [] a.notes [stage] world)
      (fun stop p' => IsDropped (terminalCall ctx budget target build now stage) deadline stop ∧
        ∃ world, p' = p.grown []
          [.called (terminalCall ctx budget target build now stage),
            .dropped (terminalCall ctx budget target build now stage).call] [] world) := by
  have hbody : (bounded stage.name (budget.limit stage.allocation)
      (terminalStep c.noted ctx stage target (budget.limit stage.allocation) build)).Reaches
      deadline now p.world
      (fun r time w => ∃ (a : Attempt) (world : ω),
        a.IsAt stage.toStage (terminalCall ctx budget target build now stage) deadline ∧
        a.stop = time ∧ r.map (fun _ => none) = a.result ∧
        w = ⟨world, p.world.notes ++ a.notes⟩)
      (fun stop w => IsDropped (terminalCall ctx budget target build now stage) deadline stop ∧
        ∃ world, w = ⟨world, p.world.notes ++
          [.called (terminalCall ctx budget target build now stage),
            .dropped (terminalCall ctx budget target build now stage).call]⟩) := by
    cases stage with
    | cleanResources =>
      exact reaches_bounded_attempt .cleanResources
        (fun n => { n with limit := some (budget.limit .resourceCleanup), target := some target })
        (fun _ => none) .cleanResources
        (hc.cleanResources ctx target (budget.limit .resourceCleanup)) hd
        rfl rfl rfl rfl
    | sendEmail =>
      exact reaches_bounded_attempt .sendEmail
        (fun n => { n with limit := some (budget.limit .sendEmail), build := some build })
        (fun _ => none) .sendEmail (hc.sendEmail ctx build (budget.limit .sendEmail))
        hd rfl rfl rfl rfl
  simp only [runTerminal, Progress.outside, reaches_bind, reaches_onPart Progress.isPart_world,
    reaches_modify, reaches_pure]
  refine hbody.mono ?_ ?_
  · rintro r time w ⟨a, world, ha, htime, hr, rfl⟩
    exact ⟨a, world, ha, htime, hr, by simp [Progress.grown]⟩
  · rintro stop w ⟨hdropped, world, rfl⟩
    exact ⟨hdropped, world, by simp [Progress.grown]⟩

theorem reaches_terminalStages (hc : c.Unbreaking) {target : Target} {build : BuildResult}
    (stages : List TerminalStage) (hd : meets now deadline) (htarget : targetAfter steps = target)
    (hbuild : buildAfter steps = build) :
    (terminalStages c.noted ctx budget target build stages).Reaches deadline now
      (after ctx.axis ctx.testId steps world)
      (fun _ => Went ctx budget deadline steps now (stages.map (·.toStage)))
      (Stopped ctx budget deadline steps now (stages.map (·.toStage))) := by
  induction stages generalizing now steps world with
  | nil =>
    rw [terminalStages, reaches_pure]
    exact ⟨[], world, .nil, by rw [List.append_nil]⟩
  | cons stage rest ih =>
    rw [terminalStages, List.map_cons]
    refine reaches_took_cons hd ?_ ?_
    · have hcall : callAfter ctx budget steps now stage.toStage =
          some (terminalCall ctx budget target build now stage) := by
        rw [← htarget, ← hbuild]
        cases stage <;> rfl
      have htime := time_of_callAfter hcall
      rw [reaches_attempt, BranchState.onProgress, reaches_onPart isPart_progress]
      refine (reaches_runTerminal hc hd target build stage).mono ?_ ?_
      · rintro r time p ⟨a, world, ha, rfl, hr, rfl⟩
        have hrecord : StageRecord.ofResult stage.toStage (a.stop - now) r = a.record := by
          rw [Attempt.record, ← hr, StageRecord.ofResult_map, ha.hstage, ha.hcall, htime]
        have hne : a.stage ≠ .createRunner := by
          rw [ha.hstage]
          cases stage <;> decide
        refine ⟨.attempted a, world, .attempted hcall ha, ?_⟩
        rw [after_attempted_of_ne hne]
        simp [concluded, begun, attempting, after, Progress.grown, hrecord, ha.hstage]
      · rintro stop p ⟨hdropped, world, rfl⟩
        refine ⟨_, world, ⟨hcall, hdropped⟩, ?_⟩
        simp [begun, cutIn, after, Progress.grown, htime]
    · intro _ step time world htakes hmeets
      -- What a terminal stage comes to changes neither target nor report of those behind it.
      have hterminal : step.stage.terminal?.isSome := by simp [htakes.stage_eq]
      have hcreation : step.creation? = none := by
        cases htakes with
        | attempted _ ha =>
          refine StageStep.creation?_attempted ?_
          rw [ha.hstage]
          cases stage <;> decide
        | passedOver => rfl
        | refused => rfl
      have haddress : step.address? = none := by
        rw [StageStep.address?, hcreation]
      refine ih hmeets ?_ ?_
      · rw [targetAfter_snoc_of_none haddress, htarget]
      · rw [buildAfter_snoc_of_terminal hterminal, hbuild]

/-! ## The main sequence -/

theorem anyFailed_after {axis testId : String} :
    (after axis testId steps world).anyFailed = steps.any (·.isFailure) := by
  simp [BranchState.anyFailed, after, List.any_map, Function.comp_def, StageStep.isFailure]

theorem reaches_provisionedStages (hc : c.Unbreaking) (hd : meets now deadline)
    (hrunner : runnerAfter steps = none) (hrefusal : refusalAfter steps = none)
    (hstages : ∀ step ∈ steps, step.stage.terminal? = none) :
    (provisionedStages c.noted ctx budget).Reaches deadline now
      (after ctx.axis ctx.testId steps world)
      (fun _ => Went ctx budget deadline steps now mainSequence)
      (Stopped ctx budget deadline steps now mainSequence) := by
  rw [provisionedStages, mainSequence]
  refine reaches_went_cons (P := fun unusable step => unusable = refusalAfter (steps ++ [step])) hd
    (reaches_runnerStage hc hd hrunner hrefusal) ?_
  rintro _ created time world hcreated rfl hd
  refine reaches_took_cons hd (reaches_testStage hc hd) ?_
  intro _ tested time world htested hd
  refine reaches_took_cons hd (reaches_logStage hc hd) ?_
  intro _ logged time world hlogged hd
  have hterminal : [.cleanResources, .sendEmail] = TerminalStage.order.map (·.toStage) := rfl
  rw [reaches_bind, reaches_get, hterminal]
  refine reaches_terminalStages hc TerminalStage.order hd rfl ?_
  -- None of the stages so far is terminal, so that every failure counts.
  have hplain :
      ∀ step ∈ steps ++ [created] ++ [tested] ++ [logged], step.stage.terminal? = none := by
    simp only [List.mem_append, List.mem_singleton]
    rintro step (((hstep | rfl) | rfl) | rfl)
    · exact hstages step hstep
    · rw [hcreated.stage_eq]; rfl
    · rw [htested.stage_eq]; rfl
    · rw [hlogged.stage_eq]; rfl
  rw [buildAfter_of_plain hplain, anyFailed_after]

theorem Path.any_isCut {stages : List Stage} {taken : List StageStep} {last : Nat}
    (h : Path ctx budget deadline steps now stages taken last) : taken.any (·.isCut) = false := by
  induction h with
  | nil => rfl
  | cons htakes _ ih =>
    rw [List.any_cons, ih, Bool.or_false]
    cases htakes <;> rfl

theorem reaches_recordCut {C : Nat → BranchState (Noted ω) → Prop} {stage : Stage} {call : CallNote}
    {Q : Unit → Nat → BranchState (Noted ω) → Prop} :
    (recordCut ctx.axis).Reaches deadline now
      (cutIn ctx.axis ctx.testId steps stage call world) Q C ↔
      Q () now (after ctx.axis ctx.testId (steps ++ [.cut stage call now]) world) := by
  rw [recordCut, reaches_bind, reaches_get]
  simp only [cutIn, reaches_bind, reaches_now, reaches_modify, reaches_record]
  rw [after_snoc_of_none rfl rfl]
  simp [after, Progress.grown, StageStep.events, StageStep.notes, StageStep.record,
    StageStep.warnings, StageStep.creation?, StageStep.stage, StageRecord.failed]

/-- **The main sequence** follows the history, and the limit is what cuts it. -/
theorem reaches_mainStages (hc : c.Unbreaking) (ctx : BranchContext)
    (hrunner : runnerAfter steps = none) (hrefusal : refusalAfter steps = none)
    (hstages : ∀ step ∈ steps, step.stage.terminal? = none)
    (limit : Nat) (checkedOut : Bool) :
    (mainStages c.noted ctx budget limit checkedOut).Reaches none now
      (after ctx.axis ctx.testId steps world)
      (fun wasCut time s => ∃ taken world,
        MainCourse ctx budget limit steps now checkedOut taken time ∧
        wasCut = taken.any (·.isCut) ∧ s = after ctx.axis ctx.testId (steps ++ taken) world)
      (fun _ _ => False) := by
  cases checkedOut with
  | true =>
    have hd : meets now (some (now + limit)) := decide_eq_true (Nat.le_add_right now limit)
    have hlimit : meets (now + limit) none := rfl
    rw [mainStages, if_pos rfl, reaches_bind, reaches_within _ _ rfl]
    refine (reaches_provisionedStages hc hd hrunner hrefusal hstages).mono ?_ ?_
    · rintro _ time s ⟨taken, world, hpath, rfl⟩
      rw [reaches_pure]
      exact ⟨taken, world, .complete hpath, hpath.any_isCut.symm, rfl⟩
    · rintro stop s ⟨early, stage, late, taken, time, call, world, hsequence, hpath, hcuts, rfl⟩
      simp only [if_pos hlimit, reaches_bind, reaches_recordCut, reaches_pure]
      exact ⟨_, world, .cut hsequence hpath hcuts, by simp [StageStep.isCut], by simp⟩
  | false =>
    rw [mainStages, if_neg Bool.false_ne_true]
    simp only [reaches_bind, reaches_modify, reaches_pure]
    refine ⟨_, world, .noWorkspace, rfl, ?_⟩
    simp [after, stagesOnWorkspace, ledgerAfter, targetAfter, runnerAfter, StageStep.events,
      StageStep.notes, StageStep.record, StageStep.marked?, StageStep.address?, StageStep.creation?]

end Rules

end Stagehand
