import Stagehand.Command.Forwarding
import Stagehand.Config.Settings
import Stagehand.Dispatch.Tools
import Stagehand.Remote.Agent

/-!
# Dispatching commands

A command of the tool is run inside the pinned image, here or on a runner. On a runner it takes a
fixed series of steps, all under one key agent: the workspace and the credentials are copied, the
groups of the user are asked for, and the container is run with them. The first step that fails ends
the series, and its failure is the answer.

**Credentials.** The AWS directory is copied unless AWS credentials travel as variables; the files
of another provider are copied only for its backends. What is not there is not copied.
-/

namespace Stagehand

/-- The socket that containers reach their host by. -/
def dockerSocket : String := "/var/run/docker.sock"

def Target.tools : Target → List String
  | here => ["docker"]
  | remote _ => ["ssh", "ssh-agent", "ssh-add", "rsync"]

/-- What commands are dispatched with. -/
structure Dispatcher where
  settings : Settings
  forwarder : EnvForwarder
  workspace : String
  /-- Decides which credentials are copied to runners. -/
  backend : Option Backend := none
  /-- Where tools are looked up. -/
  searchDirs : List String

namespace Dispatcher

/-- A dispatcher for the backend that the host's variables name. -/
def make (settings : Settings) (forwarder : EnvForwarder) (workspace : String)
    (searchDirs : List String) : Dispatcher where
  settings
  forwarder
  workspace
  backend := (forwarder.get? Variable.backend).bind fun b => (Backend.parse b).toOption
  searchDirs

/-- The same dispatcher for another workspace. -/
def forWorkspace (d : Dispatcher) (workspace : String) : Dispatcher := { d with workspace }

/-- The same dispatcher for a backend. -/
def withBackend (d : Dispatcher) (b : Backend) : Dispatcher := { d with backend := some b }

def toolCommand (d : Dispatcher) (args : List String) : CommandSpec :=
  (command d.settings.entrypoint).withArgs args

/-- The container of a command, in a workspace. -/
def invocation (d : Dispatcher) (c : CommandSpec) (workspace : String) : ContainerInvocation where
  image := d.settings.imageRef
  workspace
  env := d.forwarder.merged c.env
  volumes := [dockerSocket ++ ":" ++ dockerSocket]
  command := c.argv

def localCommand (d : Dispatcher) (c : CommandSpec) : CommandSpec :=
  (d.invocation c d.workspace).toCommand.inDir d.workspace

def runner (d : Dispatcher) (host : Network.Address) : Runner :=
  ⟨host, d.settings.remoteUser, d.settings.remoteWorkspace⟩

/-! ## Credentials -/

/-- A path that is set and leads to something. -/
def present (files : FileTree) (cwd : List String) (path : Option String) : Option String :=
  path.filter fun p => files.holds cwd p

/-- The copy of AWS credentials that a runner gets. -/
def awsPush (d : Dispatcher) (r : Runner) (files : FileTree) (cwd : List String) :
    Option CommandSpec :=
  -- The host decides, whatever the variables of the command are.
  if d.forwarder.hasAwsCredentials then none
  else (present files cwd d.settings.awsCredentialsDir).map fun dir =>
    r.push (Path.asDirectory dir) ".aws/"

/-- The copy of another provider's credentials that a runner gets. -/
def providerPush (d : Dispatcher) (r : Runner) (files : FileTree) (cwd : List String) :
    Option CommandSpec :=
  match d.backend.bind Backend.provider? with
  | some .gce => (present files cwd d.settings.gceCredentialsFile).map fun file =>
      r.push file ((Path.name? file).getD "")
  | some .azure => (present files cwd d.settings.azureCredentialsDir).map fun dir =>
      r.push (Path.asDirectory dir) ".azure/"
  | some .aws | none => none

/-! ## Dispatching -/

variable {τ : Type}

/-- Runs a command that the files of the host may call for, under an agent. -/
def runIfCalled (e : Executor τ) (agent : KeyAgent)
    (find : FileTree → List String → Option CommandSpec) : Timed (Host τ) (RunResult Unit) := do
  match ← Host.look find with
  | some c => (e.runChecked (c.withEnv agent.env) none).forget
  | none => pure (.ok ())

def groupIds (printed : String) : List String := Text.words printed

/-- The steps on a runner, under an agent. -/
def remoteSteps (d : Dispatcher) (e : Executor τ) (r : Runner) (c : CommandSpec)
    (limit : Option Nat) (agent : KeyAgent) : Timed (Host τ) (RunResult CommandOutput) :=
  let under := fun spec : CommandSpec => spec.withEnv agent.env
  (e.runChecked (under (r.push (Path.asDirectory d.workspace) r.workspace)) none).onSuccess fun _ =>
    (runIfCalled e agent (d.awsPush r)).onSuccess fun () =>
      (runIfCalled e agent (d.providerPush r)).onSuccess fun () =>
        (e.runChecked (under (r.ssh "id -G")) none).onSuccess fun listed =>
          let invocation :=
            { d.invocation c r.workspace with groupIds := groupIds listed.stdout }
          -- Only the container is run under the limit of the caller.
          e.runChecked (under (r.container invocation)) limit

/-- Runs a command inside the image, on a target. -/
def dispatch (d : Dispatcher) (e : Executor τ) (c : CommandSpec) (target : Target)
    (limit : Option Nat) : Timed (Host τ) (RunResult CommandOutput) :=
  (requireTools d.searchDirs target.tools).onSuccess fun () =>
    match target with
    | .here => e.runChecked (d.localCommand c) limit
    | .remote host =>
      KeyAgent.during e d.settings.sshKeys fun agent =>
        d.remoteSteps e (d.runner host) c limit agent

def fetch (d : Dispatcher) (e : Executor τ) (host : Network.Address) (there here : String) :
    Timed (Host τ) (RunResult Unit) :=
  (requireTools d.searchDirs (Target.remote host).tools).onSuccess fun () =>
    let r := d.runner host
    KeyAgent.during e d.settings.sshKeys fun agent =>
      (e.runChecked ((r.pull (Path.join r.workspace there) here).withEnv agent.env) none).forget

end Dispatcher

end Stagehand
