import Stagehand.Branch.FanOut
import Stagehand.CommandLine.Pipeline
import Stagehand.Dispatch.Collaborators
import Stagehand.Program.Basic
import Stagehand.Report.Document

/-!
# The program that runs branches

Settings are read first, then parameters; then all branches are run, and what they told is
shown, with a summary behind it. The program fails if no branch has artifacts, and warns if
not every branch passed.
-/

namespace Stagehand.ProgramStart

/-- What a run is made from. -/
structure RunSetup where
  /-- The directory of all workspaces. -/
  root : String
  plans : List BranchPlan
  steps : ToolSteps

/-- The setup that arguments ask for. -/
def preparedRun (s : ProgramStart) (a : PipelineArgs) : Except ProgramError RunSetup := do
  let settings ← s.checkedSettings a.settings a.logFormat
  let params ← (loadParams a.params s.vars s.files s.cwd).mapError .run
  let root := Path.join s.cwdPath a.workdir
  let d := Dispatcher.make settings (s.forwarder settings) root s.searchDirs
  .ok
    { root
      plans := a.plans params root s.testIds
      steps := ⟨d, a.repository, a.reference⟩ }

/-- Runs the plans of a setup side by side. -/
def runSetup (s : ProgramStart) (a : PipelineArgs) (r : RunSetup) :
    Timed (Host (Live.World Console)) (FanOut (Host (Live.World Console))) :=
  let c := r.steps.collaborators (s.executor a.dryRun fun _ _ shown => shown)
  FanOut.activity (runBranch c a.policy none) r.plans

/-- The warning about a run in which not every branch passed. -/
def degradedText : String := "RUN DEGRADED: not every branch passed, artifacts were collected"

/-- The end of the program after a run. -/
def concluded (overall : OverallStatus) (shown : Console) (files : FileTree) : ProgramEnd :=
  match overall with
  | .passed => ⟨0, shown, files⟩
  | .degraded => ⟨0, shown.report (Report.banner degradedText), files⟩
  | .failing => failed shown files .noArtifacts

/-- Writes the summary if it is asked for, and ends the program. -/
def summarized (s : ProgramStart) (a : PipelineArgs) (summary : RunSummary) (shown : Console)
    (files : FileTree) : ProgramEnd :=
  match a.summary with
  | none => concluded summary.overall shown files
  | some path =>
    match files.writeText s.cwd path (Report.summaryDocument summary) with
    | .ok files =>
      concluded summary.overall (shown.report (Report.info ("Summary written to " ++ path))) files
    | .error e => failed shown files (.file e)

/-- Runs the program on arguments that were read. -/
def pipelineWith (s : ProgramStart) (a : PipelineArgs) : ProgramEnd :=
  match s.preparedRun a with
  | .error e => failed {} s.files e
  | .ok r =>
    let ended := (s.runSetup a r).run (s.host { errors := Report.status "Workspaces" r.root })
    let shown := ended.state.tools.console
    let files := ended.state.files
    match ended.ending with
    | .done run =>
      let told := String.join (run.events.map Report.event)
      s.summarized a run.summary (shown.report (told ++ Report.summary run.summary)) files
    | .cut | .broken => failed shown files (.unfinished "the run never ends")

def pipeline (s : ProgramStart) : ProgramEnd :=
  match PipelineArgs.parse s.args with
  | .ok a => s.pipelineWith a
  | .error r => s.refused "hydra-pipeline" 2 r

end Stagehand.ProgramStart
