import Stagehand.Program.Dispatch
import Stagehand.Program.Pipeline
import Stagehand.Program.TestId

/-!
# The command line

The part of the host that a program may look at is copied into a tree of files; the program runs on
that tree, with scripts as the commands that it can run; and what has changed in the tree is written
back. The name of the executable decides which program it is.
-/

namespace Stagehand.CommandLine

/-- The variables of this process. -/
def environment : IO (List (String × String)) := do
  let bytes ← IO.FS.readBinFile "/proc/self/environ"
  return (Text.split (· == '\x00') ((String.fromUTF8? bytes).getD "")).filterMap fun v =>
    Text.splitFirst? '=' v

/-- Copies a file, or a directory with all that is in it. Nothing is copied where nothing is. -/
partial def copyIn (executable : Bool) (t : FileTree) (path : String) : IO FileTree := do
  try
    let here ← IO.FS.realPath path
    if ← here.isDir then
      let mut t := t.plant [] path .bareDir
      for e in ← here.readDir do
        t ← copyIn executable t (Path.join path e.fileName)
      return t
    else return t.plant [] path (.file (← IO.FS.readBinFile path) executable)
  catch _ => return t

/-- The tools that commands of the programs are made of. -/
def toolNames : List String := ["docker", "ssh", "ssh-agent", "ssh-add", "rsync", "git", "cp"]

/-- Paths that arguments may name. -/
def namedPaths (args : List String) : List String :=
  args.flatMap fun a => a :: ((Text.splitFirst? '=' a).map (·.2)).toList

/-- What a program is started with on this host. -/
def startHere (args : List String) : IO ProgramStart := do
  let vars ← environment
  let cwd := (← IO.currentDir).toString
  let bare : ProgramStart :=
    { args, vars, files := FileTree.empty, cwd := Path.parts cwd, programs := Live.usualPrograms }
  let outside := [".aws", ".azure", ".google_libcloud_auth.qa"].map (Path.join bare.home)
  let settings := Settings.candidates bare.configDir
  let tools := bare.searchDirs.flatMap fun dir => toolNames.map (Path.join dir)
  let inCwd := fun p => Path.join cwd p
  let mut files := Live.usualFiles
  for p in cwd :: outside ++ settings.map inCwd ++ (namedPaths args).map inCwd do
    files ← copyIn false files p
  for p in tools do
    files ← copyIn true files (inCwd p)
  let commas := (args.map fun a => a.toList.count ',').foldl (· + ·) 0
  let testIds ← (List.range (args.length + commas + 1)).mapM fun _ => do
    return TestId.ofBytes (← IO.getRandomBytes 16).toList
  return { bare with files, testIds }

/-- Writes back what has changed. -/
def copyOut (before after : FileTree) : IO Unit := do
  for (place, entry) in FileEntry.walkMembers [] after.members do
    let path := Path.ofParts true place
    match before.find? place, entry with
    | some (.dir _), .dir _ => pure ()
    | _, .dir _ => IO.FS.createDirAll path
    | some (.file old _), .file bytes _ => if old != bytes then IO.FS.writeBinFile path bytes
    | _, .file bytes _ => IO.FS.writeBinFile path bytes
    | _, .device => pure ()
  for (place, _) in FileEntry.walkMembers [] before.members do
    if (after.find? place).isNone then IO.FS.removeFile (Path.ofParts true place)

end Stagehand.CommandLine

open Stagehand.CommandLine in
/-- Runs the program that the executable is named for. -/
def main (args : List String) : IO UInt32 := do
  let start ← startHere args
  let name := ((← IO.appPath).fileName).getD ""
  let result := if name.endsWith "pipeline" then start.pipeline else start.dispatch
  IO.print result.console.output
  IO.eprint result.console.errors
  copyOut start.files result.files
  return (result.exitCode % 256).toNat.toUInt32
