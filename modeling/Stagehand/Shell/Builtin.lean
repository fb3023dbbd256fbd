import Stagehand.Shell.Builtin.Jobs
import Stagehand.Shell.Builtin.Surroundings
import Stagehand.Shell.Builtin.Variables

/-!
# Built-in commands

The built-in commands by their names. Those that run other commands are only named here.
-/

namespace Stagehand.Shell

open Sh

/-- Built-in commands that run no other command. -/
def plainBuiltin? (name : String) : Option (List String → Sh Unit) :=
  match name with
  | ":" | "true" => some fun _ => setStatus 0
  | "false" => some fun _ => setStatus 1
  | "echo" => some fun args => do
    setStatus 0
    printBytes (echoed args)
  | "printf" => some printfCommand
  | "test" | "[" => some (testCommand name)
  | "exit" => some exitCommand
  | "return" => some (endsWith .leave)
  | "break" => some (leaveLoops .breaks)
  | "continue" => some (leaveLoops .continues)
  | "cd" | "chdir" => some changeDir
  | "pwd" => some tellDir
  | "umask" => some maskCommand
  | "ulimit" => some limitCommand
  | "times" => some fun _ => do
    setStatus 0
    print (asLines (List.replicate 2 "0m0.000000s 0m0.000000s"))
  | "trap" => some trapCommand
  | "export" => some (markVariables "export" (·.exported) exportName)
  | "readonly" => some (markVariables "readonly" (·.fixed) fun n =>
      change fun s => { s with fixed := n :: s.fixed.filter (· != n) })
  | "local" => some localVariables
  | "unset" => some unsetNames
  | "set" => some setCommand
  | "shift" => some shiftParams
  | "getopts" => some getOption
  | "read" => some readCommand
  | "alias" => some aliasCommand
  | "unalias" => some unaliasCommand
  | "jobs" => some jobsCommand
  | "fg" | "bg" => some resumeJob
  | "wait" => some waitCommand
  | "kill" => some killCommand
  | _ => none

/-- Built-in commands that run others, or look for them. -/
def runningBuiltins : List String := ["eval", ".", "exec", "command", "type", "hash"]

def isBuiltin (name : String) : Bool := runningBuiltins.contains name || (plainBuiltin? name).isSome

/-- Built-in commands whose words may assign; those words are not split. -/
def assigningBuiltins : List String := ["export", "readonly", "local", "alias"]

end Stagehand.Shell
