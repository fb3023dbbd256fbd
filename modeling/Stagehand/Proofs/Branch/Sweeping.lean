import Stagehand.Proofs.Branch.Stages

/-!
# The sweep follows its history

The sweep archives the artifacts and attempts every terminal stage that the ledger lacks, one
after the other and each within its own allotment. It starts from any progress, and always comes
to an end.

Main result: `reaches_sweep`.
-/

namespace Stagehand

open Rehearsal (Call CallNote)
open Timed

variable {ω : Type} {c : Collaborators ω} {ctx : BranchContext} {budget : TimeBudget}
  {target : Target}
  {build : BuildResult} {destination : String} {now : Nat} {p : Progress (Noted ω)}

@[simp] theorem Progress.reaches_tell {deadline : Option Nat} {p : Progress ω}
    {Q : Unit → Nat → Progress ω → Prop} {C : Nat → Progress ω → Prop} (e : Event) :
    (Progress.tell e).Reaches deadline now p Q C ↔
      Q () now { p with events := p.events ++ [e] } := by
  rw [Progress.tell, reaches_modify]

/-! ## Archiving -/

theorem reaches_archive (hc : c.Unbreaking) :
    (archive c.noted ctx budget target destination).Reaches none now p
      (fun report time p' => ∃ (a : Archiving) (world : ω),
        Archives ctx budget target destination now a ∧ a.stop = time ∧
        report = { artifactsCollected := a.succeeded, errors := a.errors budget } ∧
        p' = p.grown [.artifactsArchived ctx.axis a.succeeded] a.notes [] world)
      (fun _ _ => False) := by
  simp only [archive, Progress.outside, reaches_bind, reaches_onPart Progress.isPart_world,
    Progress.reaches_tell, reaches_pure]
  refine reaches_bounded_noting_unlimited .copyArtifacts
    (fun n => { n with target := some target, destination := some destination }) (fun _ => none)
    (hc.copyArtifacts ctx target destination) rfl rfl
    fun ending r time world hle hlimit hexpired hr => ?_
  let a : Archiving :=
    { call :=
        { call := .copyArtifacts, time := now, context := ctx, target := some target
          destination := some destination }
      ending, stop := time }
  have hsucceeded : r.toOption.isSome = a.succeeded := by
    cases r <;> cases ending <;> cases hr <;> rfl
  have herrors : errorsOf "copy_artifacts" r = a.errors budget := by
    rw [Archiving.errors, show a.ending = ending from rfl, ← hr]
    cases r <;> rfl
  exact ⟨a, world, ⟨rfl, hle, hlimit, hexpired⟩, rfl, by rw [hsucceeded, herrors],
    by simp [Progress.grown, hsucceeded, Archiving.notes, a]⟩

/-! ## Terminal stages -/

/-- A report with more stages. -/
def SweepReport.grown (report : SweepReport) (stages : List TerminalStage)
    (attempts : List Attempt) : SweepReport where
  artifactsCollected := report.artifactsCollected
  reinvoked := report.reinvoked ++ stages
  records := report.records ++ attempts.map (·.record)
  errors := report.errors ++ attempts.flatMap (·.errors)

theorem reaches_sweepStage (hc : c.Unbreaking) (report : SweepReport) (stage : TerminalStage) :
    (sweepStage c.noted ctx budget target build report stage).Reaches none now p
      (fun report' time p' => ∃ (a : Attempt) (world : ω),
        a.IsAt stage.toStage (terminalCall ctx budget target build now stage) none ∧ a.stop = time ∧
        report' = report.grown [stage] [a] ∧
        p' = p.grown (a.sweepEvent? ctx.axis).toList a.notes [stage] world)
      (fun _ _ => False) := by
  simp only [sweepStage, reaches_bind, reaches_now, Progress.reaches_tell, reaches_pure]
  refine (reaches_runTerminal hc rfl target build stage).mono ?_ ?_
  · rintro r time p' ⟨a, world, ha, rfl, hr, rfl⟩
    have htime : a.call.time = now := by
      rw [ha.hcall]
      cases stage <;> rfl
    have hrecord : StageRecord.ofResult stage.toStage (a.stop - now) r = a.record := by
      rw [Attempt.record, ← hr, StageRecord.ofResult_map, ha.hstage, htime]
    have hname : stage.toStage.name = stage.name := by
      cases stage <;> rfl
    have herrors : errorsOf stage.name r = a.errors := by
      rw [Attempt.errors, ← hr, ha.hstage, hname]
      cases r <;> rfl
    have hevent : a.sweepEvent? ctx.axis =
        some (.sweepInvoked ctx.axis stage r.toOption.isSome) := by
      rw [Attempt.sweepEvent?, ← hr, ha.hstage, TerminalStage.terminal?_toStage]
      cases r <;> rfl
    refine ⟨a, world, ha, rfl, ?_, ?_⟩
    · simp [SweepReport.grown, hrecord, herrors]
    · simp [Progress.grown, hevent]
  · rintro _ _ ⟨hdropped, -⟩
    cases hdropped.hdeadline

theorem reaches_sweepStages (hc : c.Unbreaking) (report : SweepReport)
    (stages : List TerminalStage) :
    (sweepStages c.noted ctx budget target build stages report).Reaches none now p
      (fun report' time p' => ∃ (attempts : List Attempt) (world : ω),
        Sweeps ctx budget target build now stages attempts time ∧
        report' = report.grown stages attempts ∧
        p' = p.grown (attempts.filterMap (·.sweepEvent? ctx.axis)) (attempts.flatMap (·.notes))
          stages world)
      (fun _ _ => False) := by
  induction stages generalizing now p report with
  | nil =>
    rw [sweepStages, reaches_pure]
    exact ⟨[], p.world.world, .nil, by simp [SweepReport.grown], by simp [Progress.grown]⟩
  | cons stage rest ih =>
    rw [sweepStages, reaches_bind]
    refine (reaches_sweepStage hc report stage).mono ?_ fun _ _ h => h
    rintro _ _ _ ⟨a, world, ha, rfl, rfl, rfl⟩
    refine (ih _).mono ?_ fun _ _ h => h
    rintro _ last _ ⟨attempts, world, hsweeps, rfl, rfl⟩
    refine ⟨a :: attempts, world, .cons ha hsweeps, ?_, ?_⟩
    · simp [SweepReport.grown]
    · rw [Progress.grown_grown]
      cases hevent : a.sweepEvent? ctx.axis <;> simp [hevent]

/-! ## The sweep -/

theorem Sweeps.marks {stages : List TerminalStage} {attempts : List Attempt} {last : Nat}
    (h : Sweeps ctx budget target build now stages attempts last) :
    attempts.filterMap (·.stage.terminal?) = stages := by
  induction h with
  | nil => rfl
  | cons ha _ ih => rw [List.filterMap_cons, ha.hstage, TerminalStage.terminal?_toStage, ih]

/-- **The sweep** comes to an end, and does what the ledger at its start lacks. -/
theorem reaches_sweep (hc : c.Unbreaking) :
    (sweep c.noted ctx budget target build destination).Reaches none now p
      (fun report time p' => ∃ (swept : Swept) (world : ω),
        Archives ctx budget target destination now swept.archiving ∧
        Sweeps ctx budget target build swept.archiving.stop p.ledger.missing swept.attempts time ∧
        report = swept.report budget ∧
        p' = p.grown (swept.events ctx.axis) swept.notes swept.marks world)
      (fun _ _ => False) := by
  rw [sweep, reaches_bind]
  refine (reaches_archive hc).mono ?_ fun _ _ h => h
  rintro _ _ _ ⟨archiving, world, harchives, rfl, rfl, rfl⟩
  rw [reaches_bind, reaches_get]
  refine (reaches_sweepStages hc _ _).mono ?_ fun _ _ h => h
  rintro _ last _ ⟨attempts, world, hsweeps, rfl, rfl⟩
  refine ⟨⟨archiving, attempts⟩, world, harchives, hsweeps, ?_, ?_⟩
  · simp [SweepReport.grown, Swept.report, Swept.marks, Swept.records, hsweeps.marks]
  · rw [Progress.grown_grown]
    simp [Swept.events, Swept.notes, Swept.marks, hsweeps.marks]

end Stagehand
