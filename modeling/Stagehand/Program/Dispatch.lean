import Stagehand.CommandLine.Invocation
import Stagehand.Dispatch.Dispatcher
import Stagehand.Program.Basic

/-!
# The program that dispatches one command

The command line is interpreted before settings are read, and settings before anything is run. The
lines of the command are shown as they come; the status is that of the command.
-/

namespace Stagehand.ProgramStart

/-- The dispatcher and the invocation that arguments ask for. -/
def preparedDispatch (s : ProgramStart) (a : DispatchArgs) :
    Except ProgramError (Dispatcher × Invocation) := do
  let i ← Invocation.ofArgs a
  let settings ← s.checkedSettings a.settings a.logFormat
  let d := Dispatcher.make settings (s.forwarder settings) s.cwdPath s.searchDirs
  .ok (match i.backend with
    | some b => d.withBackend b
    | none => d, i)

/-- Runs the program on arguments that were read. -/
def dispatchWith (s : ProgramStart) (a : DispatchArgs) : ProgramEnd :=
  match s.preparedDispatch a with
  | .error e => failed {} s.files e
  | .ok (d, i) =>
    let c := d.toolCommand i.tokens
    let shown := Report.status "Dispatching" (c.display ++ " (" ++ i.target.describe ++ ")")
    let ended := (d.dispatch (s.executor a.dryRun Console.printStep) c i.target none).run
      (s.host { errors := shown })
    let shown := ended.state.tools.console
    let files := ended.state.files
    match ended.ending with
    | .done (.ok _) => ⟨0, shown, files⟩
    | .done (.error e) => failed shown files (.run e)
    | .cut | .broken => failed shown files (.unfinished "the command never ends")

def dispatch (s : ProgramStart) : ProgramEnd :=
  match DispatchArgs.parse s.args with
  | .ok a => s.dispatchWith a
  | .error r => s.refused "hydra" 1 r

end Stagehand.ProgramStart
