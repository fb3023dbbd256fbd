import Stagehand.Command.Spec
import Stagehand.Timed

/-!
# Hosts and executors

A host holds files and a working directory, and runs commands by an executor. Commands that were
left behind by an activity that was cut are issued when whoever goes on has to wait.

An executor answers a command with its output, whatever its status, or with the reason why it could
not be run. One that only simulates runs nothing.
-/

namespace Stagehand

/-- The host of a run; `tools` is what the executor keeps. -/
structure Host (τ : Type) where
  files : FileTree
  cwd : List String := []
  /-- Commands to be issued as soon as nothing else can go on. -/
  leftBehind : List CommandSpec := []
  tools : τ

namespace Host

variable {τ α : Type}

/-- Leaves a command behind. -/
def leave (c : CommandSpec) (h : Host τ) : Host τ := { h with leftBehind := h.leftBehind ++ [c] }

/-- Tries to change the files. -/
def change (f : FileTree → List String → Except FileError Unit × FileTree) :
    Timed (Host τ) (RunResult Unit) :=
  Timed.modifyGet fun h =>
    let (answer, files) := f h.files h.cwd
    (answer.mapError RunError.file, { h with files })

def look (f : FileTree → List String → α) : Timed (Host τ) α :=
  Timed.modifyGet fun h => (f h.files h.cwd, h)

end Host

/-- Runs commands on a host. -/
structure Executor (τ : Type) where
  /-- Nothing is run in earnest. -/
  simulated : Bool
  /-- Runs a command, which is given a limit in seconds if there is one. -/
  run : CommandSpec → Option Nat → Timed (Host τ) (RunResult CommandOutput)

namespace Executor

variable {τ : Type}

/-- Runs a command that has to succeed. -/
def runChecked (e : Executor τ) (c : CommandSpec) (limit : Option Nat) :
    Timed (Host τ) (RunResult CommandOutput) := do
  match ← e.run c limit with
  | .ok output => pure (output.check c)
  | .error err => pure (.error err)

end Executor

/-- Goes on with the answer of a step that succeeded. -/
def Timed.onSuccess {σ α β : Type} (x : Timed σ (RunResult α)) (f : α → Timed σ (RunResult β)) :
    Timed σ (RunResult β) := do
  match ← x with
  | .ok a => f a
  | .error e => pure (.error e)

/-- Forgets the answer of a step. -/
def Timed.forget {σ α : Type} (x : Timed σ (RunResult α)) : Timed σ (RunResult Unit) :=
  x.onSuccess fun _ => pure (.ok ())

end Stagehand
