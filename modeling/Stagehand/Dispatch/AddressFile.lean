import Stagehand.Command.Executor
import Stagehand.Remote.Runner

/-!
# The runner's address file

A file of one line in a workspace that holds the address of the branch's runner. A file that is
missing or blank is a configuration error, never a reason to run without a runner.
-/

namespace Stagehand.AddressFile

/-- The address in the content of the file at `path`. -/
def parse (path content : String) : RunResult Network.Address :=
  let line := Text.trim ((Text.lines content).head?.getD "")
  if line.isEmpty then .error (.configuration (.blankAddress path)) else parseRunnerAddress line

def read (path : String) (files : FileTree) (cwd : List String) : RunResult Network.Address :=
  match files.readText cwd path with
  | .ok content => parse path content
  | .error e => .error (.configuration (.unreadableAddress path e))

/-- Writes an address, making the directory if needed. Directories that were made are there also
when the file, or a later directory, is refused. -/
def write (path : String) (address : Network.Address) (files : FileTree) (cwd : List String) :
    Except FileError Unit × FileTree :=
  match files.makeDirs cwd ((Path.parent? path).getD "") with
  | (.error e, made) => (.error e, made)
  | (.ok (), made) =>
    match made.writeText cwd path (address.render ++ "\n") with
    | .ok written => (.ok (), written)
    | .error e => (.error e, made)

end Stagehand.AddressFile
