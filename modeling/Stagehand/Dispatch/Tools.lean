import Stagehand.Command.Executor

/-!
# Required tools

Programs that have to be installed before work is started. A name is looked up in search
directories, and a path from the working directory; a tool is a file that may be run.
-/

namespace Stagehand

/-- A tool is at its path or, if it is only a name, in one of the directories. -/
def isInstalled (files : FileTree) (cwd : List String) (dirs : List String)
    (tool : String) : Bool :=
  if Path.isNested tool then files.isProgram cwd tool
  else dirs.any fun dir => files.isProgram cwd (Path.join dir tool)

def missingTools (files : FileTree) (cwd : List String) (dirs tools : List String) : List String :=
  tools.filter fun tool => !isInstalled files cwd dirs tool

def checkTools (files : FileTree) (cwd : List String) (dirs tools : List String) : RunResult Unit :=
  match missingTools files cwd dirs tools with
  | [] => .ok ()
  | missing => .error (.configuration (.missingTools missing))

/-- Refuses if a tool is missing on the host. -/
def requireTools {τ : Type} (dirs tools : List String) : Timed (Host τ) (RunResult Unit) :=
  Host.look fun files cwd => checkTools files cwd dirs tools

end Stagehand
