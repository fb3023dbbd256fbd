import Stagehand.Proofs.Dispatch.Selectors

/-!
# The environment of a branch and its configuration

A branch tells its commands by variables what its configuration decides, and its test id. Each of
these variables has the value that it has in the configuration, **unless it is the axis variable,
which has the value of the axis whatever it is named** (`ToolSteps.environment_agrees`). So an axis
that runs over regions makes a branch whose environment names another region than its configuration.
-/

namespace Stagehand

open Timed

namespace BranchPlan

/-- The variables that a branch owns, with the values that its configuration has for them. -/
def owned (p : BranchPlan) (c : RunConfiguration) : List (String × String) :=
  (Variable.testId, p.testId) :: c.decided

/-- The value that an owned variable is given. -/
def ownedValue (p : BranchPlan) (v : String × String) : String :=
  if p.axisVariable = some v.1 then p.axis else v.2

end BranchPlan

/-- What is decided is carried by variables of parameters. -/
theorem RunConfiguration.mem_carriers_of_mem_decided {c : RunConfiguration} {v : String × String}
    (h : v ∈ c.decided) : v.1 ∈ Variable.carriers := by
  have hall : ∀ name ∈ c.decided.map (·.1), name ∈ Variable.carriers := by
    obtain ⟨_, _, _, source, _, _, _, testConfig, _, _, _⟩ := c
    rcases source with _ | _ | _ | _ <;> rcases testConfig with _ | _ <;>
    · simp only [decided, RunParams.decidedOverlay, ArtifactSource.overlay, List.map_append,
        List.map_cons, List.map_nil, Option.map_some, Option.map_none, Option.toList]
      decide
  exact hall v.1 (List.mem_map_of_mem h)

section Owned

variable {p : BranchPlan} {c : RunConfiguration} {policy : SelectorPolicy} {v : String × String}

/-- Only the axis variable comes before what is owned. -/
theorem BranchPlan.get?_environment_of_owned (hresolved : p.params.resolve policy = .ok c)
    (h : v ∈ p.owned c) : (p.environment c).get? v.1 = some (p.ownedValue v) := by
  rw [p.get?_environment c, ownedValue]
  split
  · rfl
  · rcases List.mem_cons.1 h with rfl | hdecided
    · rw [if_pos rfl]
    · have hid : v.1 ≠ Variable.testId := by
        have hcarrier := RunConfiguration.mem_carriers_of_mem_decided hdecided
        exact ne_of_mem_of_not_mem hcarrier (by decide)
      rw [if_neg hid]
      exact (RunParams.resolve_eq_ok_iff.1 hresolved).get?_overlay_of_mem hdecided

/-- What is owned is named like the variables of the tool. -/
theorem EnvForwarder.allows_owned {stems : List String} (hstem : Variable.stem ∈ stems)
    (h : v ∈ p.owned c) : allows stems v.1 = true := by
  have hnames : ∀ name ∈ Variable.testId :: Variable.carriers,
      Text.startsWith Variable.stem.toList name.toList = true := List.all_eq_true.1 (by cbv)
  have hname : v.1 ∈ Variable.testId :: Variable.carriers := by
    rcases List.mem_cons.1 h with rfl | hdecided
    · exact List.mem_cons_self
    · exact List.mem_cons_of_mem _ (RunConfiguration.mem_carriers_of_mem_decided hdecided)
  exact List.any_eq_true.2 ⟨_, hstem, hnames _ hname⟩

end Owned

namespace ToolSteps

variable {t : ToolSteps} {p : BranchPlan} {c : RunConfiguration} {policy : SelectorPolicy}

/-- **The environment of a branch agrees with its configuration but for the axis variable.** In the
containers of its commands too, each owned variable has the value of the configuration, unless it is
the axis variable; that one has the value of the axis, whatever its name. The two agree throughout
exactly if the axis variable is not owned, or has the value that it has in the configuration. -/
theorem environment_agrees {τ : Type} (hresolved : p.params.resolve policy = .ok c) (e : Executor τ)
    (limit : Option Nat) {h : Host (Watched τ)} (hseen : h.tools.seen = []) :
    (∀ v ∈ p.owned c, (p.environment c).get? v.1 = some (p.ownedValue v)) ∧
    (∀ name, p.axisVariable = some name → (p.environment c).get? name = some p.axis) ∧
    ((∀ v ∈ p.owned c, (p.environment c).get? v.1 = some v.2) ↔
      ∀ v ∈ p.owned c, p.axisVariable = some v.1 → p.axis = v.2) ∧
    ∀ spec ∈ (p.runWithin (t.collaborators e.watched) policy limit
        h).state.progress.world.seenCommands,
      spec.IsErrand ∨ ∃ i, spec.Runs i ∧
        (Variable.stem ∈ t.dispatcher.forwarder.stems →
          ∀ v ∈ p.owned c, i.env.get? v.1 = some (p.ownedValue v)) ∧
        ∀ name, p.axisVariable = some name →
          EnvForwarder.allows t.dispatcher.forwarder.stems name = true →
          i.env.get? name = some p.axis := by
  have howned : ∀ v ∈ p.owned c, (p.environment c).get? v.1 = some (p.ownedValue v) :=
    fun v hv => BranchPlan.get?_environment_of_owned hresolved hv
  have haxis : ∀ name, p.axisVariable = some name → (p.environment c).get? name = some p.axis := by
    intro name hname
    rw [p.get?_environment c, if_pos hname]
  refine ⟨howned, haxis, forall₂_congr fun v hv => ?_, fun spec hspec => ?_⟩
  · rw [howned v hv, Option.some_inj, BranchPlan.ownedValue]
    split
    · next hname => exact ⟨fun heq _ => heq, fun h => h hname⟩
    · next hname => exact ⟨fun _ h => absurd h hname, fun _ => rfl⟩
  · rcases (issues_of_mem_seenCommands hresolved e limit hseen spec hspec).runs with
      herrand | ⟨i, args, workspace, hruns, henv⟩
    · exact .inl herrand
    · have hcontainer :
        ∀ {name value}, EnvForwarder.allows t.dispatcher.forwarder.stems name = true →
          (p.environment c).get? name = some value → i.env.get? name = some value := by
        intro name value hallowed hvalue
        rw [henv, get?_env_container hallowed]
        show ((p.environment c).get? name).or _ = _
        rw [hvalue, Option.some_or]
      refine .inr ⟨i, hruns, fun hstem v hv => ?_, fun name hname hallowed => ?_⟩
      · exact hcontainer (EnvForwarder.allows_owned hstem hv) (howned v hv)
      · exact hcontainer hallowed (haxis name hname)

/-! ### An axis of regions -/

/-- The plan of a branch in another region than the one that is given. -/
def regionPlan : BranchPlan :=
  planOf (RunParams.ofVariables [(Variable.backend, "docker"), (Variable.region, "eu-west-1"),
    (Variable.amiId, "ami-1")]) "/runs" (some Variable.region) "us-east-1" "1"

def regionConfiguration : RunConfiguration :=
  { amiConfiguration with
    region := "eu-west-1"
    overlay := NameMap.ofList (RunParams.decidedOverlay .docker "eu-west-1" "a" (.ami "ami-1")
      ⟨.destroy, .destroy, .destroy⟩ .spot none) }

theorem resolve_regionPlan : regionPlan.params.resolve .firstMatch = .ok regionConfiguration :=
  RunParams.resolve_eq_ok_iff.2 (by constructor <;> rfl)

theorem environment_agrees_regionPlan :
    (regionPlan.environment regionConfiguration).get? Variable.availabilityZone = some "a" ∧
      (regionPlan.environment regionConfiguration).get? Variable.testId = some "1" ∧
      ¬ ∀ v ∈ regionPlan.owned regionConfiguration,
        (regionPlan.environment regionConfiguration).get? v.1 = some v.2 := by
  obtain ⟨howned, -, hagree, -⟩ := environment_agrees (t := amiSteps) (p := regionPlan)
    resolve_regionPlan silent none (h := dockerHost) rfl
  have hmem : ∀ v ∈ [(Variable.availabilityZone, "a"), (Variable.testId, "1"),
      (Variable.region, "eu-west-1")], v ∈ regionPlan.owned regionConfiguration := by
    decide
  refine ⟨(howned (Variable.availabilityZone, "a") (hmem _ (by decide))).trans (by decide),
    (howned (Variable.testId, "1") (hmem _ (by decide))).trans (by decide), fun hall => ?_⟩
  exact absurd (hagree.1 hall (Variable.region, "eu-west-1") (hmem _ (by decide)) rfl) (by decide)

/-- The configuration decides one region, and a container of the branch is told another. -/
theorem region_of_axis_in_container :
    regionPlan.params.resolve .firstMatch = .ok regionConfiguration ∧
      (Variable.region, "eu-west-1") ∈ regionConfiguration.decided ∧
      (regionPlan.environment regionConfiguration).get? Variable.region = some "us-east-1" ∧
      ∃ spec ∈ (regionPlan.runWithin (amiSteps.collaborators silent.watched) .firstMatch none
          dockerHost).state.progress.world.seenCommands,
        ∃ i, spec.Runs i ∧ i.env.get? Variable.region = some "us-east-1" := by
  have hregion : (regionPlan.environment regionConfiguration).get? Variable.region =
      some "us-east-1" := (regionPlan.get?_environment _ _).trans (if_pos rfl)
  refine ⟨resolve_regionPlan, by decide, hregion, ?_⟩
  obtain ⟨spec, hspec, hdir⟩ :
    ∃ spec ∈ (regionPlan.runWithin (amiSteps.collaborators silent.watched)
      .firstMatch none dockerHost).state.progress.world.seenCommands, spec.workdir.isSome = true :=
    List.any_eq_true.1 (by decide +kernel)
  rcases (issues_of_mem_seenCommands resolve_regionPlan silent none (h := dockerHost) rfl spec
      hspec).runs with herrand | ⟨i, args, workspace, hruns, henv⟩
  · rw [herrand.workdir] at hdir
    cases hdir
  · refine ⟨spec, hspec, i, hruns, ?_⟩
    rw [henv, get?_env_container (by decide)]
    show ((regionPlan.environment regionConfiguration).get? Variable.region).or _ = _
    rw [hregion, Option.some_or]

end ToolSteps

end Stagehand
