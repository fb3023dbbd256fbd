import Stagehand.Branch.Collaborators
import Stagehand.Command.Container

/-!
# Runners

A runner is reached by ssh under a user's name, and keeps its workspace in one directory. Files
travel to it and from it by rsync over the same connection.
-/

namespace Stagehand

/-- Reads the address of a runner, with blanks around it. -/
def parseRunnerAddress (s : String) : RunResult Network.Address :=
  match Network.Address.parse? (Text.trim s) with
  | some a => .ok a
  | none => .error (.notAnAddress s)

/-- The runner at an address given by hand. -/
def Target.ofAddress (s : String) : RunResult Target := (parseRunnerAddress s).map Target.remote

/-- Options of every connection. -/
def sshOptions : List String :=
  ["-o", "StrictHostKeyChecking=no", "-o", "UserKnownHostsFile=/dev/null",
    "-o", "ServerAliveInterval=60"]

def command (program : String) : CommandSpec := { program }

structure Runner where
  host : Network.Address
  user : String
  workspace : String

namespace Runner

/-- The user at the host. -/
def destination (r : Runner) : String := r.user ++ "@" ++ r.host.render

def path (r : Runner) (p : String) : String := r.destination ++ ":" ++ p

/-- Runs a command line on the runner. -/
def ssh (r : Runner) (line : String) : CommandSpec :=
  (command "ssh").withArgs (sshOptions ++ [r.destination, line])

/-- The connection that files travel over. -/
def transport : String := Text.joinWith " " ("ssh" :: sshOptions)

/-- Copies from a local path to one on the runner. -/
def push (r : Runner) (here there : String) : CommandSpec :=
  (command "rsync").withArgs ["-a", "-e", transport, here, r.path there]

/-- Copies from a path on the runner to a local one. -/
def pull (r : Runner) (there here : String) : CommandSpec :=
  (command "rsync").withArgs ["-a", "-e", transport, r.path there, here]

/-- Runs a container on the runner. Sensitive variables are assigned in front of it, and masked. -/
def container (r : Runner) (i : ContainerInvocation) : CommandSpec :=
  let assignments := i.sensitiveEnv.map fun v => v.1 ++ "=" ++ v.2
  let line := Shell.quoteAll (assignments ++ "docker" :: i.args)
  i.sensitiveEnv.foldl (fun c v => c.secret v.2) (r.ssh line)

end Runner

end Stagehand
