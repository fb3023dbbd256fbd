import Stagehand.Proofs.Budget
import Stagehand.Proofs.Dispatch.CreatedRunner

/-!
# How long a runner is kept

A runner is asked for with the hours that it is kept: the duration of the test in full hours, and
six more. The budget of the test grows by a share of the duration, not by hours.

**Theorem (`keepAlive_covers_iff`).** A runner is always kept six hours longer than the test asks
for. It is kept as long as the test may run exactly if the share that the budget adds is no more
than these six hours and what is missing to the full hour. So it is for tests of up to 2452
minutes, almost 41 hours, and for none of more than 2765, about 46 hours. These are the hours that
the command asks for.
-/

namespace Stagehand

open Decimal (ceilDiv)

/-! ## Hours and shares -/

/-- The minutes from a duration to its next full hour. -/
def toFullHour (minutes : Nat) : Nat := 60 * ceilDiv minutes 60 - minutes

theorem add_toFullHour (minutes : Nat) :
    minutes + toFullHour minutes = 60 * ceilDiv minutes 60 := by
  simp only [toFullHour, ceilDiv]
  omega

/-- The minutes that a runner is kept. -/
def RunnerSizing.keptMinutes (s : RunnerSizing) : Nat := 60 * s.keepHours

/-- A runner is kept for six hours after the hour in which the test is to end. -/
theorem RunnerSizing.keptMinutes_forDuration {minutes : Nat} (h : minutes ≤ 129600) :
    (forDuration minutes).keptMinutes = minutes + toFullHour minutes + 360 := by
  have hmax : Decimal.maxNat64 = 18446744073709551615 := rfl
  have hhours : (forDuration minutes).keepHours = ceilDiv minutes 60 + 6 := by
    refine Decimal.satAdd_of_le ?_
    simp only [ceilDiv]
    omega
  rw [keptMinutes, hhours, add_toFullHour]
  omega

namespace TimeBudget.Grants

variable {requested : Int} {backend : Backend} {region : String} {b : TimeBudget}
  (h : Grants requested backend region b)
include h

theorem keptMinutes_eq :
    (RunnerSizing.forDuration requested.toNat).keptMinutes =
      requested.toNat + toFullHour requested.toNat + 360 := by
  have hnotLong := h.notLong
  exact RunnerSizing.keptMinutes_forDuration (by omega)

/-- The share of the margin is compared with the six hours; the least margin is always covered. -/
theorem testRun_le_keptMinutes_iff :
    b.testRun ≤ (RunnerSizing.forDuration requested.toNat).keptMinutes ↔
      ceilDiv (requested.toNat * 15) 100 ≤ 360 + toFullHour requested.toNat := by
  rw [h.testRun, h.keptMinutes_eq]
  omega

theorem testRun_le_keptMinutes (hshort : requested ≤ 2452) :
    b.testRun ≤ (RunnerSizing.forDuration requested.toNat).keptMinutes := by
  rw [h.testRun_le_keptMinutes_iff]
  simp only [toFullHour, ceilDiv]
  omega

/-- Less than an hour is missing to the full hour, so the six hours are short of seven. -/
theorem keptMinutes_lt_testRun (hlong : 2765 < requested) :
    (RunnerSizing.forDuration requested.toNat).keptMinutes < b.testRun := by
  rw [← Nat.not_le, h.testRun_le_keptMinutes_iff]
  simp only [toFullHour, ceilDiv]
  omega

end TimeBudget.Grants

/-! ## The command -/

namespace ToolSteps

/-- The hours that the runner of a branch is kept. -/
def keepHours (ctx : BranchContext) : Nat :=
  (RunnerSizing.forDuration ctx.config.durationMinutes.toNat).keepHours

theorem suffix_argv_createCommand (t : ToolSteps) (ctx : BranchContext) (provider : CloudProvider) :
    ["--keep-hours", toString (keepHours ctx)] <:+ (t.createCommand ctx provider).argv := by
  have hargs : ["--keep-hours", toString (keepHours ctx)] <:+ createArgs ctx provider :=
    ⟨(createArgs ctx provider).take 15, rfl⟩
  have htool : createArgs ctx provider <:+ (t.tool ctx (createArgs ctx provider)).argv := by
    rw [tool, CommandSpec.argv_withEnv]
    exact List.suffix_cons _ _
  have hcontainer : (t.tool ctx (createArgs ctx provider)).argv <:+
      (t.createCommand ctx provider).argv := by
    show _ <:+
      ((t.dispatcherFor ctx).invocation (t.tool ctx (createArgs ctx provider)) _).toCommand.argv
    rw [ContainerInvocation.argv_toCommand]
    exact (List.suffix_append _ _).trans (List.suffix_cons _ _)
  exact hargs.trans (htool.trans hcontainer)

end ToolSteps

/-! ## Tests and their runners -/

/-- **How long a runner is kept**, compared with the time that its test is given; and these are the
hours that the runner of a branch is asked for with. -/
theorem keepAlive_covers_iff {requested : Int} {backend : Backend} {region : String}
    {b : TimeBudget} (h : TimeBudget.compute requested backend region = .ok b) :
    requested + 360 ≤ (RunnerSizing.forDuration requested.toNat).keptMinutes ∧
    (b.testRun ≤ (RunnerSizing.forDuration requested.toNat).keptMinutes ↔
      ceilDiv (requested.toNat * 15) 100 ≤ 360 + toFullHour requested.toNat) ∧
    (requested ≤ 2452 → b.testRun ≤ (RunnerSizing.forDuration requested.toNat).keptMinutes) ∧
    (2765 < requested → (RunnerSizing.forDuration requested.toNat).keptMinutes < b.testRun) ∧
    ∀ (t : ToolSteps) (ctx : BranchContext), ctx.config.durationMinutes = requested →
      ∀ provider, ctx.config.backend.provider? = some provider →
        ["--keep-hours", toString (RunnerSizing.forDuration requested.toNat).keepHours] <:+
            (t.createCommand ctx provider).argv ∧
          ∀ (τ : Type) (e : Executor τ), e.simulated = false → ∀ limit deadline now before,
            checkTools before.files before.cwd t.dispatcher.searchDirs Target.here.tools = .ok () →
              ((t.createRunner e.watched ctx limit).runUnder deadline now
                before).state.seenCommands =
                  before.seenCommands ++ [t.createCommand ctx provider] := by
  have hgrants := TimeBudget.compute_eq_ok_iff.1 h
  refine ⟨?_, hgrants.testRun_le_keptMinutes_iff, hgrants.testRun_le_keptMinutes,
    hgrants.keptMinutes_lt_testRun, ?_⟩
  · rw [hgrants.keptMinutes_eq]
    omega
  · intro t ctx hduration provider hprovider
    subst hduration
    exact ⟨t.suffix_argv_createCommand ctx provider, fun _ e hlive _ _ _ _ htools =>
      ToolSteps.seenCommands_createRunner hlive hprovider htools⟩

/-- The longest test that ends before its hour is full and is covered to the minute; and
half an hour. -/
theorem keepAlive_covers_iff_fortyHours :
    (∃ b, TimeBudget.compute 2452 .aws "eu-west-1" = .ok b ∧ b.testRun = 2820 ∧
      b.testRun ≤ (RunnerSizing.forDuration 2452).keptMinutes) ∧
    ∃ b, TimeBudget.compute 30 .gce "us-west1" = .ok b ∧
      b.testRun ≤ (RunnerSizing.forDuration 30).keptMinutes ∧
      ["--keep-hours", "7"] <:+
        (ToolSteps.runnerSteps.createCommand ToolSteps.runnerContext .gce).argv := by
  have hlong : TimeBudget.compute 2452 .aws "eu-west-1" =
      .ok ⟨2820, 20, 70, 30, 10⟩ := by decide +kernel
  have hshort : TimeBudget.compute 30 .gce "us-west1" =
      .ok ⟨90, 20, 70, 30, 10⟩ := by decide +kernel
  obtain ⟨-, -, hcovered, -⟩ := keepAlive_covers_iff hlong
  obtain ⟨-, -, hcovered', -, hasked⟩ := keepAlive_covers_iff hshort
  exact ⟨⟨_, hlong, rfl, hcovered (by decide)⟩, _, hshort, hcovered' (by decide),
    (hasked ToolSteps.runnerSteps ToolSteps.runnerContext rfl .gce rfl).1⟩

/-- A test of a week may run for 19 hours after its runner need not be kept any more. -/
theorem keepAlive_not_covers_week :
    ∃ b, TimeBudget.compute 10080 .aws "eu-west-1" = .ok b ∧
      (RunnerSizing.forDuration 10080).keepHours = 174 ∧ b.testRun = 11592 ∧
      ¬ b.testRun ≤ 60 * (RunnerSizing.forDuration 10080).keepHours := by
  have hcompute : TimeBudget.compute 10080 .aws "eu-west-1" = .ok ⟨11592, 20, 70, 30, 10⟩ := by
    decide +kernel
  exact ⟨_, hcompute, rfl, rfl, by decide⟩

end Stagehand
