import Stagehand.Command.Executor
import Stagehand.Remote.Runner

/-!
# Key agents

A key agent holds the keys for one use of a runner. It is started before the use and killed
after it, whatever came of it. If the use is cut, the kill is left behind for when nothing else
can go on; where nothing can go on any more, it is run at once (`KeyAgent.killAtOnce?`). How the
kill ends changes nothing.
-/

namespace Stagehand

structure KeyAgent where
  socket : String
  pid : String
  deriving DecidableEq, Repr

namespace KeyAgent

/-- The variables that lead to the agent. -/
def env (a : KeyAgent) : List (String × String) :=
  [("SSH_AUTH_SOCK", a.socket), ("SSH_AGENT_PID", a.pid)]

def kill (a : KeyAgent) : CommandSpec := ((command "ssh-agent").arg "-k").withEnv a.env

def startCommand : CommandSpec := (command "ssh-agent").arg "-s"

def addKey (a : KeyAgent) (key : String) : CommandSpec :=
  ((command "ssh-add").arg key).withEnv a.env

/-! ## Reading what an agent prints -/

/-- The value that one statement gives to a variable. -/
def statementValue? (name statement : List Char) : Option (List Char) :=
  (Text.stripLeading? (name ++ ['=']) (Text.trimmed statement)).map Text.trimmed

/-- The value that the first statement for a variable gives it. -/
def valueOf? (name : String) (printed : String) : Option String :=
  ((Text.pieces (fun c => c == ';' || c == '\n') printed.toList).findSome?
    (statementValue? name.toList)).map String.ofList

/-- The agent that printed a text. -/
def parse (printed : String) : RunResult KeyAgent :=
  match valueOf? "SSH_AUTH_SOCK" printed, valueOf? "SSH_AGENT_PID" printed with
  | some socket, some pid => .ok ⟨socket, pid⟩
  | _, _ =>
    .error (.command "ssh-agent -s" (some 0)
      ("unexpected ssh-agent output: " ++ Text.trim printed))

/-- The agent that stands in when commands are only simulated. -/
def standIn : KeyAgent := ⟨"/tmp/hydra-dry-run/agent.sock", "0"⟩

/-! ## Starting and stopping -/

variable {τ α : Type}

/-- Does something with the agent, which is left to be killed if that is cut. -/
def holding (a : KeyAgent) (body : Timed (Host τ) α) : Timed (Host τ) α :=
  Timed.whenAbandoned (Host.leave a.kill) body

def stop (e : Executor τ) (a : KeyAgent) : Timed (Host τ) Unit := do
  let _ ← e.runChecked a.kill none
  pure ()

/-- The command that is run on the spot when the agent is let go of after its host has stopped. The
executor can run nothing by then: the command does not go through it. -/
def killAtOnce? (e : Executor τ) (a : KeyAgent) : Option CommandSpec :=
  if e.simulated then none else some a.kill

/-- Loads keys; if one does not load, the agent is killed. -/
def loadKeys (e : Executor τ) (a : KeyAgent) : List String → Timed (Host τ) (RunResult KeyAgent)
  | [] => pure (.ok a)
  | key :: rest => do
    match ← a.holding (e.runChecked (a.addKey key) none) with
    | .ok _ => a.loadKeys e rest
    | .error err =>
      a.stop e
      pure (.error err)

/-- Starts an agent and loads keys into it. -/
def start (e : Executor τ) (keys : List String) : Timed (Host τ) (RunResult KeyAgent) :=
  (e.runChecked startCommand none).onSuccess fun output =>
    match if e.simulated then .ok standIn else parse output.stdout with
    | .ok a => a.loadKeys e keys
    | .error err => pure (.error err)

/-- Uses an agent, and kills it. -/
def during (e : Executor τ) (keys : List String) (body : KeyAgent → Timed (Host τ) (RunResult α)) :
    Timed (Host τ) (RunResult α) :=
  (start e keys).onSuccess fun a => do
    let result ← a.holding (body a)
    -- The kill is not held: if it is dropped while it runs, nobody is left to kill the agent.
    a.stop e
    pure result

end KeyAgent

end Stagehand
