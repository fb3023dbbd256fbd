import Stagehand.CommandLine.Error
import Stagehand.CommandLine.Options
import Stagehand.Command.DryRun
import Stagehand.Command.Forwarding
import Stagehand.Config.Document
import Stagehand.Live.Executor
import Stagehand.Report.Display

/-!
# Programs

A program is started with arguments and variables on a host, shows texts on two streams, and ends
with a status. The host's files may be others afterwards.
-/

namespace Stagehand

/-! ## What a program shows -/

/-- The texts that a program has shown. -/
structure Console where
  output : String := ""
  errors : String := ""
  deriving DecidableEq, Repr

namespace Console

def print (text : String) (c : Console) : Console := { c with output := c.output ++ text }

/-- Shows a text about the program itself. -/
def report (text : String) (c : Console) : Console := { c with errors := c.errors ++ text }

/-- Shows a line of a command that the program runs. -/
def printStep (isError : Bool) (line : String) (c : Console) : Console :=
  if isError then c.report (Report.stepError line) else c.print (Report.stepOutput line)

/-- Shows a command that is not run. -/
def printDryRun (commandLine : String) (c : Console) : Console :=
  c.print ("[dry-run] " ++ commandLine ++ "\n")

end Console

/-! ## Starting and ending -/

structure ProgramStart where
  args : List String
  vars : List (String × String)
  files : FileTree
  cwd : List String
  /-- The programs of the host that are no scripts, with their places. -/
  programs : List (List String × Shell.SystemProgram) := []
  /-- Names for tests, none of which was used before. -/
  testIds : List String := []

/-- What a program leaves. -/
structure ProgramEnd where
  exitCode : Int
  console : Console
  files : FileTree

namespace ProgramStart

def var? (s : ProgramStart) (name : String) : Option String := s.vars.lookup name

def home (s : ProgramStart) : String :=
  ((s.var? "HOME").filter fun h => !h.isEmpty).getD "/root"

/-- The user's configuration directory: a variable names it if it holds an absolute path. -/
def configDir (s : ProgramStart) : String :=
  ((s.var? "XDG_CONFIG_HOME").filter Path.isAbsolute).getD (Path.join s.home ".config")

/-- The directories that programs are looked up in. -/
def searchDirs (s : ProgramStart) : List String :=
  match s.var? "PATH" with
  | some path => Text.split (· == ':') path
  | none => []

def cwdPath (s : ProgramStart) : String := "/" ++ Text.joinWith "/" s.cwd

/-- The settings of a given file, or of the first candidate, with the variables over them. -/
def settings (s : ProgramStart) (given : Option String) : RunResult Settings :=
  ((Settings.default s.home).load s.configDir given s.files s.cwd).map fun settings =>
    settings.withVariables s.vars

/-- Settings whose log format, or the one that is given in its place, is known. -/
def checkedSettings (s : ProgramStart) (given logFormat : Option String) :
    Except ProgramError Settings := do
  let settings ← (s.settings given).mapError .run
  let _ ← LogFormat.parse (logFormat.getD settings.logFormat)
  .ok settings

/-- The forwarder of the program's own variables. -/
def forwarder (s : ProgramStart) (settings : Settings) : EnvForwarder :=
  EnvForwarder.ofVariables settings.forwardedStems s.vars

/-- The executor of the program. `tell` is given the lines of commands that are run. -/
def executor (s : ProgramStart) (dryRun : Bool) (tell : Bool → String → Console → Console) :
    Executor (Live.World Console) :=
  if dryRun then DryRun.executor fun line w => w.onConsole (Console.printDryRun line)
  else Live.executor (NameMap.ofList s.vars) tell

/-- The host of the program, with what was shown before. -/
def host (s : ProgramStart) (shown : Console) : Host (Live.World Console) :=
  { files := s.files, cwd := s.cwd, tools := Live.World.still s.programs shown }

/-- The end of the program after a failure. -/
def failed (shown : Console) (files : FileTree) (e : ProgramError) : ProgramEnd where
  exitCode := e.exitCode
  console := shown.report (match e with
    | .usage text => text ++ "\n"
    | e => Report.error e.message)
  files := files

/-- The end of the program after its command line was refused: a wrong one gives `status`. -/
def refused (s : ProgramStart) (name : String) (status : Int) : CommandLine.Refusal → ProgramEnd
  | .usage => ⟨status, { errors := usage }, s.files⟩
  | .help => ⟨0, { output := usage }, s.files⟩
  | .version => ⟨0, { output := name ++ " 0.3.0\n" }, s.files⟩
where
  /-- How the program is called. -/
  usage : String := "Usage: " ++ name ++ " [OPTIONS]\n"

end ProgramStart

end Stagehand
