import Stagehand.Command.Executor
import Stagehand.Live.Usual
import Stagehand.Live.World

/-!
# Running commands in earnest

Commands are started as processes: the program is looked up, its variables are laid over
those of the host, and its output is captured. A program is a script or one of the few that
the host brings along.

**Ends.** A command has ended when its process has, and nothing can be written to its output any
more. So processes that it left behind are waited for if they may still write there.

**Limits.** A process that has not ended at its limit is killed; what it did before stays
done, and the lines that it completed were given on. Starting a process takes a moment, so a
limit of zero is never kept. Those that the process has started are not killed, and what they
print is still given on.
-/

namespace Stagehand.Live

open Shell (Machine System)

/-! ## Starting -/

/-- A program that can be started: its shell, its place, and the path that led there. -/
structure Ready where
  shell : Shell.ShellState
  place : List String
  path : String
  argv : List String

/-- A text of a command holds a zero character. -/
def holdsZero (c : CommandSpec) : Bool :=
  (c.argv ++ c.workdir.toList ++ c.env.toList.flatMap fun v => [v.1, v.2]).any fun s =>
    s.toList.contains '\x00'

def startDir (files : FileTree) (cwd : List String) : Option String → Except FileError (List String)
  | none => .ok cwd
  | some path => do
    let place ← files.locate cwd path
    files.requireDir place
    .ok place

/-- The shell of a process with some variables. -/
def shellOf (env : NameMap String) (dir : List String) : Shell.ShellState :=
  let vars := env.toList.map fun v => (Text.narrow v.1, Text.narrow v.2)
  { vars := NameMap.ofList vars, exported := vars.map (·.1), cwd := dir }

/-- The shell that a program is looked up with: without a search path there is a usual one. -/
def withSearchPath (s : Shell.ShellState) : Shell.ShellState :=
  if (s.vars.get? "PATH").isSome then s else { s with vars := s.vars.insert "PATH" "/bin:/usr/bin" }

/-- A file without an interpreter is run as a script if it was found on a search path that the
command brings along. -/
def isScriptAnyway (c : CommandSpec) : Bool :=
  (c.env.get? "PATH").isSome && !c.program.toList.contains '/'

/-- The process of a command, or the reason why the host refuses to start it. -/
def ready (env : NameMap String) (m : Machine) (cwd : List String) (c : CommandSpec) :
    Except FileError Ready := do
  if holdsZero c then .error (.stated "nul byte found in provided data")
  else
    let shell := shellOf (env.insertAll c.env.toList) (← startDir m.files cwd c.workdir)
    let m :=
      { m with members := [(0, { parent := 0, shell := withSearchPath shell })], current := 0 }
    let (place, path) ← Shell.findProgram m (Text.narrow c.program)
    match Shell.requireInterpreter m place with
    | .error .badFormat => if isScriptAnyway c then .ok () else .error .badFormat
    | r => r
    .ok ⟨shell, place, path, c.argv.map Text.narrow⟩

/-! ## Following -/

variable {κ α : Type}

/-- Bounds how often a process is looked at; one that goes on counts as one that never ends. -/
def followBound : Nat := 10000000

/-- The host at a time, after its processes went on. -/
def advanced (tell : Bool → String → κ → κ) (now : Nat) (h : Host (World κ)) : Host (World κ) :=
  let w := (h.tools.onFiles h.files).advance tell (now * 1000) followBound
  { h with files := w.system.machine.files, tools := w }

/-- Waits until something is seen of a process; if that is abandoned the process is killed. -/
def follow (tell : Bool → String → κ → κ) (id : Nat) (seen? : World κ → Option α) :
    Nat → Timed (Host (World κ)) α
  | 0 => Timed.hang
  | fuel + 1 => .look fun now h =>
    let h := advanced tell now h
    .put h (match seen? h.tools with
      | some a => .done a
      | none => .pause
        { wake := h.tools.system.wake?.map fun t => (t + 999) / 1000
          abandoned := fun h => { h with tools := h.tools.change (System.signal 9 id) } }
        (follow tell id seen? fuel))

/-! ## Running -/

/-- The status of a process that was not killed. -/
def statusOf : Shell.Exit → Option Int
  | .status n => some (Int.ofNat (n % 256))
  | .signal _ => none

/-- Runs a command under a limit in milliseconds. -/
def runLimited (env : NameMap String) (tell : Bool → String → κ → κ) (c : CommandSpec)
    (millis : Option Nat) : Timed (Host (World κ)) (RunResult CommandOutput) := do
  let h ← Timed.get
  match ready env { h.tools.system.machine with files := h.files } h.cwd c with
  | .error e =>
    let why := "failed to spawn '" ++ c.program ++ "': " ++ e.message
    return .error (.command c.commandLine none why)
  | .ok p =>
    let (id, out, errs) ← Timed.modifyGet fun h : Host (World κ) =>
      let h := { h with tools := h.tools.onFiles h.files }
      let (ids, w) := h.tools.start p.shell p.place p.path p.argv
      (ids, { h with tools := w })
    let awaited := follow tell id (·.ending? id) followBound
    match ← (match millis with
      | some millis => Timed.within millis awaited
      | none => some <$> awaited) with
    | none => return .error (.timeout c.commandLine (millis.getD 0 / 1000))
    | some e =>
      let texts ← follow tell id
        (fun w => do return (← w.captured? out, ← w.captured? errs)) followBound
      Timed.modify fun h : Host (World κ) => { h with tools := h.tools.forget id [out, errs] }
      return .ok { stdout := texts.1, stderr := texts.2, exitCode := statusOf e }

/-- Runs the commands that were left behind, whatever they come to. -/
def runLeft (env : NameMap String) (tell : Bool → String → κ → κ) :
    Timed (Host (World κ)) Unit := do
  let left ← Timed.modifyGet fun h : Host (World κ) => (h.leftBehind, { h with leftBehind := [] })
  left.forM fun c => do
    let _ ← runLimited env tell c none

/-- An executor that runs commands in earnest, with the variables of the host. -/
def executor (env : NameMap String) (tell : Bool → String → κ → κ) : Executor (World κ) where
  simulated := false
  run c limit := do
    runLeft env tell
    runLimited env tell c (limit.map (· * 1000))

end Stagehand.Live
