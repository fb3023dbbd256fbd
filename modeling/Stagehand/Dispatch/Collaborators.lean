import Stagehand.Budget
import Stagehand.Dispatch.AddressFile
import Stagehand.Dispatch.Dispatcher

/-!
# Collaborators that dispatch the tool

The steps of a branch as commands of the tool, dispatched with the variables of the branch.
Workspaces are cloned from a repository if one is given. When commands are only simulated, no
directory is made, and a runner is given an address set aside for documentation.
-/

namespace Stagehand

/-- What the steps of branches are dispatched with. -/
structure ToolSteps where
  dispatcher : Dispatcher
  /-- The repository that workspaces are cloned from. -/
  repository : Option String := none
  /-- The branch or tag that is checked out. -/
  reference : Option String := none

namespace ToolSteps

variable {τ : Type}

/-- The address of a runner that is only simulated. -/
def simulatedAddress : Network.Address := ⟨192, 0, 2, 10⟩

/-- Where the tool leaves its results, in a workspace. -/
def resultsDir : String := "latest/"

def dispatcherFor (t : ToolSteps) (ctx : BranchContext) : Dispatcher :=
  (t.dispatcher.forWorkspace ctx.workdir).withBackend ctx.config.backend

/-- A command of the tool with the variables of a branch. -/
def tool (t : ToolSteps) (ctx : BranchContext) (args : List String) : CommandSpec :=
  (t.dispatcher.toolCommand args).withEnv ctx.env.toList

def dispatch (t : ToolSteps) (e : Executor τ) (ctx : BranchContext) (args : List String)
    (target : Target) (limit : Nat) : Timed (Host τ) (RunResult Unit) :=
  ((t.dispatcherFor ctx).dispatch e (t.tool ctx args) target (some limit)).forget

/-- Makes a directory, unless nothing is done in earnest. -/
def makeDirs (e : Executor τ) (path : String) : Timed (Host τ) (RunResult Unit) :=
  if e.simulated then pure (.ok ())
  else Host.change fun files cwd => files.makeDirs cwd path

/-! ## The steps -/

def cloneCommand (repository : String) (reference : Option String) (workdir : String) :
    CommandSpec :=
  (command "git").withArgs
    (["clone", "--quiet"] ++ (reference.map fun r => ["--branch", r]).getD [] ++
      [repository, workdir])

/-- Makes the workspace. -/
def checkout (t : ToolSteps) (e : Executor τ) (ctx : BranchContext) :
    Timed (Host τ) (RunResult Unit) :=
  match t.repository with
  | none => makeDirs e ctx.workdir
  | some repository =>
    (requireTools t.dispatcher.searchDirs ["git"]).onSuccess fun () =>
      (match Path.parent? ctx.workdir with
        | some dir => makeDirs e dir
        | none => pure (.ok ())).onSuccess fun () =>
          (e.runChecked (cloneCommand repository t.reference ctx.workdir) none).forget

def createArgs (ctx : BranchContext) (provider : CloudProvider) : List String :=
  let sizing := RunnerSizing.forDuration ctx.config.durationMinutes.toNat
  ["create-runner-instance", "--cloud-provider", provider.name,
    "--region", ctx.config.primaryRegion, "--availability-zone", ctx.config.availabilityZone,
    "--test-id", ctx.testId, "--duration", toString ctx.config.durationMinutes,
    "--instance-class", sizing.cls.name, "--root-disk-size-gb", toString sizing.rootDiskGb,
    "--keep-hours", toString sizing.keepHours]

/-- Creates a runner and reads its address from the workspace. -/
def createRunner (t : ToolSteps) (e : Executor τ) (ctx : BranchContext) (limit : Nat) :
    Timed (Host τ) (RunResult Network.Address) :=
  match ctx.config.backend.provider? with
  | none => pure (.error (.configuration (.runnerlessBackend ctx.config.backend.name)))
  | some provider =>
    (t.dispatch e ctx (createArgs ctx provider) .here limit).onSuccess fun () =>
      let path := Path.join ctx.workdir t.dispatcher.settings.runnerAddressFile
      (if e.simulated then Host.change (AddressFile.write path simulatedAddress)
        else pure (.ok ())).onSuccess fun () =>
          Host.look (AddressFile.read path)

def testArgs (ctx : BranchContext) : List String :=
  ["run-test", ctx.config.testName, "--backend", ctx.config.backend.name] ++
  (ctx.config.testConfig.map fun c => ["--config", c]).getD []

def logArgs (ctx : BranchContext) : List String :=
  ["collect-logs", "--backend", ctx.config.backend.name, "--test-id", ctx.testId]

def cleanArgs (ctx : BranchContext) : List String :=
  ["clean-resources", "--post-behavior", "--test-id", ctx.testId]

def mailArgs (ctx : BranchContext) (build : BuildResult) : List String :=
  ["send-email", "--test-status", build.name, "--test-id", ctx.testId,
    "--email-recipients", Text.joinWith "," ctx.config.emailRecipients]

/-- Sends mail, if it is to be sent to anyone. -/
def sendEmail (t : ToolSteps) (e : Executor τ) (ctx : BranchContext) (build : BuildResult)
    (limit : Nat) : Timed (Host τ) (RunResult Unit) :=
  if ctx.config.emailRecipients.isEmpty then pure (.ok ())
  else t.dispatch e ctx (mailArgs ctx build) .here limit

/-- The command that copies results that are here. -/
def copyCommand (results destination : String) : CommandSpec :=
  (command "cp").withArgs ["-a", results ++ ".", destination]

/-- Fetches the results of the test into a directory. -/
def copyArtifacts (t : ToolSteps) (e : Executor τ) (ctx : BranchContext) (target : Target)
    (destination : String) : Timed (Host τ) (RunResult Unit) :=
  (makeDirs e destination).onSuccess fun () =>
    match target with
    | .remote host => (t.dispatcherFor ctx).fetch e host resultsDir destination
    | .here =>
      (requireTools t.dispatcher.searchDirs ["cp"]).onSuccess fun () => do
        let results := Path.join ctx.workdir resultsDir
        let there ← Host.look fun files cwd => files.isDir cwd results
        if !there && !e.simulated then
          pure (.error (.command ("cp -a " ++ results) none "no results directory in workspace"))
        else
          (e.runChecked (copyCommand results destination) none).forget

def collaborators (t : ToolSteps) (e : Executor τ) : Collaborators (Host τ) where
  checkout := t.checkout e
  createRunner := t.createRunner e
  runTest ctx target limit := t.dispatch e ctx (testArgs ctx) target limit
  collectLogs ctx target limit := t.dispatch e ctx (logArgs ctx) target limit
  cleanResources ctx target limit := t.dispatch e ctx (cleanArgs ctx) target limit
  sendEmail := t.sendEmail e
  copyArtifacts := t.copyArtifacts e

end ToolSteps

end Stagehand
