import Stagehand.Command.DryRun
import Stagehand.CommandLine.Pipeline
import Stagehand.Proofs.Config.Resolution
import Stagehand.Proofs.Config.Variables
import Stagehand.Proofs.Dispatch.Steps

/-!
# Which selectors reach a container

The variables that select a build come to a container by two ways: what was resolved is laid over
what the host forwards. The overlay names the chosen source, and takes nothing away. So a
selector that was passed over is still there if the host has it, or if the document names it
among its own variables: the containers of a branch carry the chosen source alone **exactly if
nobody names another one**.

Main result: `ToolSteps.selectors_of_containers`.
-/

namespace Stagehand

open Timed

/-! ## What is resolved -/

namespace RunParams

theorem get?_extraEnv_ofVariables {name : String} (h : name ∈ Variable.selectors)
    (vars : List (String × String)) : (ofVariables vars).extraEnv.get? name = Option.none := by
  have hcarrier : name ∈ Variable.carriers := by
    revert name
    decide
  rw [ofVariables_eq, get?_extraEnv_ofMap, Variable.isPassedOn_of_mem hcarrier,
    if_neg Bool.false_ne_true]

end RunParams

/-! ## What is handed over -/

/-- The value that a selector has in the containers of a branch: that of the axis if it is the axis
variable, or else that of the chosen source, or else the one that the document passes on, or else
that of the host. -/
def BranchPlan.selectorValue (p : BranchPlan) (source : ArtifactSource) (document : RunParams)
    (vars : List (String × String)) (name : String) : Option String :=
  if p.axisVariable = some name then some p.axis
  else (source.overlay.lookup name).or
    ((document.extraEnv.get? name).or ((NameMap.ofList vars).get? name))

/-- The axis variable comes first, then the test id, and then the overlay. -/
theorem BranchPlan.get?_environment (p : BranchPlan) (c : RunConfiguration) (name : String) :
    (p.environment c).get? name =
      if p.axisVariable = some name then some p.axis
      else if name = Variable.testId then some p.testId
      else c.overlay.get? name := by
  unfold environment
  cases p.axisVariable with
  | none => simp [NameMap.get?_insert]
  | some axisName => simp [NameMap.get?_insert, eq_comm]

namespace EnvForwarder

theorem get?_forwarded {stems : List String} {name : String} (h : allows stems name = true)
    (vars : List (String × String)) :
    (ofVariables stems vars).forwarded.get? name = (NameMap.ofList vars).get? name := by
  rw [ofVariables, NameMap.get?_ofList, NameMap.get?_ofList, ← List.filter_reverse,
    NameMap.lookup_filter, if_pos h]

theorem get?_merged {f : EnvForwarder} {name : String} (h : allows f.stems name = true)
    (overlay : NameMap String) :
    (f.merged overlay).get? name = (overlay.get? name).or (f.forwarded.get? name) := by
  rw [merged, NameMap.get?_insertAll_filter _ _ f.isAllowed, isAllowed, if_pos h]

theorem allows_selector {stems : List String} (hstem : Variable.stem ∈ stems) {name : String}
    (h : name ∈ Variable.selectors) : allows stems name = true := by
  refine List.any_eq_true.2 ⟨_, hstem, ?_⟩
  revert name
  decide

end EnvForwarder

inductive CommandSpec.Runs (i : ContainerInvocation) : CommandSpec → Prop where
  | here (dir : String) : Runs i (i.toCommand.inDir dir)
  | there (r : Runner) (a : KeyAgent) : Runs i ((r.container i).withEnv a.env)

namespace ToolSteps

variable {t : ToolSteps} {p : BranchPlan} {c : RunConfiguration} {policy : SelectorPolicy}
  {stems : List String} {vars : List (String × String)} {document : RunParams}

theorem get?_env_tool (t : ToolSteps) (ctx : BranchContext) (args : List String) (name : String) :
    (t.tool ctx args).env.get? name = ctx.env.get? name := by
  rw [tool, CommandSpec.env_withEnv, NameMap.get?_insertAll_toList]
  exact Option.or_none

/-- A variable that may travel has the value of the branch in a container, or else that
of the host. -/
theorem get?_env_container {ctx : BranchContext} {name : String}
    (h : EnvForwarder.allows t.dispatcher.forwarder.stems name = true) (args : List String)
    (workspace : String) :
    ((t.dispatcherFor ctx).invocation (t.tool ctx args) workspace).env.get? name =
      (ctx.env.get? name).or (t.dispatcher.forwarder.get? name) := by
  show (t.dispatcher.forwarder.merged (t.tool ctx args).env).get? name = _
  rw [EnvForwarder.get?_merged h, get?_env_tool]
  rfl

/-- A command that a branch issues is an errand or runs a container of a command of the tool. -/
theorem Issues.runs {ctx : BranchContext} {spec : CommandSpec} (h : t.Issues ctx spec) :
    spec.IsErrand ∨ ∃ i args workspace, spec.Runs i ∧
      i.env = ((t.dispatcherFor ctx).invocation (t.tool ctx args) workspace).env := by
  cases h with
  | errand h => exact .inl h
  | here args => exact .inr ⟨_, args, _, .here _, rfl⟩
  | there args r groupIds a => exact .inr ⟨_, args, r.workspace, .there r a, rfl⟩

/-- The selectors in a container of a command of the tool. -/
theorem get?_env_invocation
    (hparams : p.params = document.overlaidWith (RunParams.ofVariables vars))
    (hresolved : p.params.resolve policy = .ok c)
    (hforwarder : t.dispatcher.forwarder = EnvForwarder.ofVariables stems vars)
    (hstem : Variable.stem ∈ stems) (args : List String) (workspace : String) {name : String}
    (h : name ∈ Variable.selectors) :
    ((t.dispatcherFor (p.context c)).invocation (t.tool (p.context c) args)
        workspace).env.get? name =
      p.selectorValue c.artifactSource document vars name := by
  have hallowed := EnvForwarder.allows_selector hstem h
  have hid : name ≠ Variable.testId := by
    rintro rfl
    revert h
    decide
  have hextra : p.params.extraEnv.get? name = document.extraEnv.get? name := by
    rw [hparams, RunParams.overlaidWith, NameMap.get?_insertAll_toList,
      RunParams.get?_extraEnv_ofVariables h, Option.none_or]
  have hoverlay : c.overlay.get? name =
      (c.artifactSource.overlay.lookup name).or (document.extraEnv.get? name) := by
    rw [(RunParams.resolve_eq_ok_iff.1 hresolved).get?_overlay, RunConfiguration.decided,
      RunParams.lookup_decidedOverlay h, hextra]
  rw [get?_env_container (by rwa [hforwarder]), hforwarder, EnvForwarder.get?,
    EnvForwarder.get?_forwarded hallowed]
  show ((p.environment c).get? name).or _ = _
  rw [p.get?_environment c, if_neg hid, hoverlay, BranchPlan.selectorValue]
  split
  · exact Option.some_or
  · exact Option.or_assoc

/-- A command that a branch issues is an errand or runs a container with these selectors. -/
theorem Issues.selectors
    (hparams : p.params = document.overlaidWith (RunParams.ofVariables vars))
    (hresolved : p.params.resolve policy = .ok c)
    (hforwarder : t.dispatcher.forwarder = EnvForwarder.ofVariables stems vars)
    (hstem : Variable.stem ∈ stems) {spec : CommandSpec} (h : t.Issues (p.context c) spec) :
    spec.IsErrand ∨ ∃ i, spec.Runs i ∧ ∀ name ∈ Variable.selectors,
      i.env.get? name = p.selectorValue c.artifactSource document vars name := by
  rcases h.runs with herrand | ⟨i, args, workspace, hruns, henv⟩
  · exact .inl herrand
  · refine .inr ⟨i, hruns, fun name h => ?_⟩
    rw [henv, get?_env_invocation hparams hresolved hforwarder hstem args workspace h]

/-! ## Branches -/

/-- All that a branch issues is what its steps issue. -/
theorem issues_of_mem_seenCommands {τ : Type} (hresolved : p.params.resolve policy = .ok c)
    (e : Executor τ) (limit : Option Nat) {h : Host (Watched τ)} (hseen : h.tools.seen = []) :
    ∀ spec ∈ (p.runWithin (t.collaborators e.watched) policy limit
      h).state.progress.world.seenCommands, t.Issues (p.context c) spec := by
  have hcalls : ∀ config, p.params.resolve policy = .ok config →
      Collaborators.RunAs (Executor.HasSeenOnly (t.Issues (p.context c)))
        (t.collaborators e.watched) (t.collaborators e.watched) (p.context config) := by
    intro config hconfig
    obtain rfl : config = c := Except.ok.inj (hconfig.symm.trans hresolved)
    exact runAs_collaborators (e.runAs_hasSeenOnly _)
  have hstart : (h.seenCommands : List CommandSpec) = [] := by rw [Host.seenCommands, hseen]; rfl
  have hrun := runsAs_runBranch hcalls limit none 0 { progress := { world := h } }
    { progress := { world := h } } rfl
    ⟨⟨rfl, rfl, rfl, by simp [hstart]⟩, rfl, rfl, rfl, rfl⟩
  exact hrun.state.progress.world.2

/-- **The selectors in the containers of a branch** are those of the chosen source, and for all
others what the document passes on or the host has; the axis variable comes before them all. They
are those of the chosen source alone exactly if neither the document nor the host names another one,
and the axis variable is none of them or has the chosen value. -/
theorem selectors_of_containers {τ : Type}
    (hparams : p.params = document.overlaidWith (RunParams.ofVariables vars))
    (hresolved : p.params.resolve policy = .ok c)
    (hforwarder : t.dispatcher.forwarder = EnvForwarder.ofVariables stems vars)
    (hstem : Variable.stem ∈ stems) (e : Executor τ) (limit : Option Nat) {h : Host (Watched τ)}
    (hseen : h.tools.seen = []) :
    (∀ spec ∈ (p.runWithin (t.collaborators e.watched) policy limit
        h).state.progress.world.seenCommands,
      spec.IsErrand ∨ ∃ i, spec.Runs i ∧ ∀ name ∈ Variable.selectors,
        i.env.get? name = p.selectorValue c.artifactSource document vars name) ∧
    ((∀ name ∈ Variable.selectors,
        p.selectorValue c.artifactSource document vars name =
          c.artifactSource.overlay.lookup name) ↔
      ∀ name ∈ Variable.selectors,
        if p.axisVariable = some name then c.artifactSource.overlay.lookup name = some p.axis
        else c.artifactSource.overlay.lookup name = none →
          document.extraEnv.get? name = none ∧ (NameMap.ofList vars).get? name = none) := by
  refine ⟨fun spec hspec => ?_, forall₂_congr fun name _ => ?_⟩
  · exact (issues_of_mem_seenCommands hresolved e limit hseen spec hspec).selectors hparams
      hresolved hforwarder hstem
  · unfold BranchPlan.selectorValue
    split
    · exact eq_comm
    · cases c.artifactSource.overlay.lookup name with
      | none => simp [Option.or_eq_none_iff]
      | some value => simp

/-! ### A host with two selectors -/

/-- The variables of a host that names an AMI, and a version with it. -/
def amiAndVersion : List (String × String) :=
  [(Variable.backend, "docker"), (Variable.amiId, "ami-1"), (Variable.version, "5.2")]

/-- The plan of a run on that host without a document. -/
def amiPlan : BranchPlan :=
  planOf (RunParams.none.overlaidWith (RunParams.ofVariables amiAndVersion)) "/runs" none
    singleAxis "1"

def amiConfiguration : RunConfiguration where
  backend := .docker
  region := Backend.docker.defaultRegion
  availabilityZone := "a"
  artifactSource := .ami "ami-1"
  disposal := ⟨.destroy, .destroy, .destroy⟩
  provisionType := .spot
  testName := defaultTestName
  testConfig := none
  durationMinutes := defaultDuration
  emailRecipients := []
  overlay := NameMap.ofList (RunParams.decidedOverlay .docker Backend.docker.defaultRegion "a"
    (.ami "ami-1") ⟨.destroy, .destroy, .destroy⟩ .spot none)

theorem resolve_amiPlan : amiPlan.params.resolve .firstMatch = .ok amiConfiguration :=
  RunParams.resolve_eq_ok_iff.2 (by constructor <;> rfl)

def amiSteps : ToolSteps where
  dispatcher := Dispatcher.make
    { sshKeys := [], awsCredentialsDir := none, gceCredentialsFile := none,
      azureCredentialsDir := none }
    (EnvForwarder.ofVariables [Variable.stem] amiAndVersion) "/runs" ["/bin"]

def dockerHost : Host (Watched Unit) where
  files := ⟨[("bin", .dir [("docker", .file ByteArray.empty true)])]⟩
  tools := { tools := () }

/-- An executor that runs nothing and tells nothing. -/
def silent : Executor Unit := DryRun.executor fun _ _ => ()

theorem selectors_of_containers_amiPlan :
    (∀ spec ∈ (amiPlan.runWithin (amiSteps.collaborators silent.watched) .firstMatch none
        dockerHost).state.progress.world.seenCommands,
      spec.IsErrand ∨ ∃ i, spec.Runs i ∧ ∀ name ∈ Variable.selectors,
        i.env.get? name =
          amiPlan.selectorValue (.ami "ami-1") RunParams.none amiAndVersion name) ∧
    ((∀ name ∈ Variable.selectors,
        amiPlan.selectorValue (.ami "ami-1") RunParams.none amiAndVersion name =
          (ArtifactSource.ami "ami-1").overlay.lookup name) ↔
      ∀ name ∈ Variable.selectors,
        if amiPlan.axisVariable = some name then
          (ArtifactSource.ami "ami-1").overlay.lookup name = some amiPlan.axis
        else (ArtifactSource.ami "ami-1").overlay.lookup name = none →
          RunParams.none.extraEnv.get? name = none ∧
            (NameMap.ofList amiAndVersion).get? name = none) :=
  selectors_of_containers (p := amiPlan) (t := amiSteps) (h := dockerHost) rfl resolve_amiPlan rfl
    List.mem_cons_self silent none rfl

/-- The version was passed over, and a container of the branch carries it. -/
theorem version_in_container_amiPlan :
    amiPlan.params.resolve .firstMatch = .ok amiConfiguration ∧
      amiConfiguration.artifactSource.overlay.lookup Variable.version = none ∧
      ∃ spec ∈ (amiPlan.runWithin (amiSteps.collaborators silent.watched) .firstMatch none
          dockerHost).state.progress.world.seenCommands,
        ∃ i, spec.Runs i ∧ i.env.get? Variable.version = some "5.2" := by
  refine ⟨resolve_amiPlan, rfl, ?_⟩
  -- Errands are run where the tool is; this command has a directory of its own.
  obtain ⟨spec, hspec, hdir⟩ : ∃ spec ∈ (amiPlan.runWithin (amiSteps.collaborators silent.watched)
      .firstMatch none dockerHost).state.progress.world.seenCommands, spec.workdir.isSome = true :=
    List.any_eq_true.1 (by decide +kernel)
  have hissued := issues_of_mem_seenCommands resolve_amiPlan silent none
      (h := dockerHost) rfl spec hspec
  have hforwarder : amiSteps.dispatcher.forwarder =
      EnvForwarder.ofVariables [Variable.stem] amiAndVersion := rfl
  have hparams : amiPlan.params = RunParams.none.overlaidWith
      (RunParams.ofVariables amiAndVersion) :=
    rfl
  rcases hissued.selectors hparams resolve_amiPlan hforwarder List.mem_cons_self with
    herrand | ⟨i, hruns, hselectors⟩
  · rw [herrand.workdir] at hdir
    cases hdir
  · exact ⟨spec, hspec, i, hruns, hselectors _ (by decide)⟩

end ToolSteps

end Stagehand
