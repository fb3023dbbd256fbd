import Stagehand.CommandLine.Error
import Stagehand.CommandLine.Options
import Stagehand.Remote.Runner

/-!
# The command line that dispatches a command

Options stand in front of the command of the tool; the command itself is passed on as it is. A
backend that is given as an option is handed to the tool in front of its command; if none is, the
one that the tool's own arguments name last decides what credentials are copied.
-/

namespace Stagehand

open CommandLine (Given Grammar Refusal)

structure DispatchArgs where
  runner : Option String
  dryRun : Bool
  backend : Option String
  settings : Option String
  logFormat : Option String
  command : List String
  deriving DecidableEq, Repr

namespace DispatchArgs

def grammar : Grammar where
  options :=
    [{ name := "execute-on-runner", kind := .text }, { name := "dry-run-hydra", kind := .flag },
     { name := "backend", kind := .text, letter := some 'b' }, { name := "config", kind := .path },
     { name := "log-format", kind := .text }]
  wantsCommand := true

/-- The arguments that a command line gives. -/
def ofGiven (g : Given) : DispatchArgs where
  runner := g.value? "execute-on-runner"
  dryRun := g.has "dry-run-hydra"
  backend := g.value? "backend"
  settings := g.value? "config"
  logFormat := g.value? "log-format"
  command := g.words

def parse (args : List String) : Except Refusal DispatchArgs := (grammar.read args).map ofGiven

end DispatchArgs

/-! ## Invocations -/

/-- What is run, and where. -/
structure Invocation where
  tokens : List String
  backend : Option Backend
  target : Target
  deriving DecidableEq, Repr

namespace Invocation

/-- The backend that the last such option among the tool's arguments names. -/
def namedBackend? : List String → Option String
  | [] => none
  | token :: rest =>
    match Text.rest? token "--backend=" with
    | some name => (namedBackend? rest).or (some name)
    | none =>
      if token == "-b" || token == "--backend" then
        match rest with
        | name :: rest => (namedBackend? rest).or (some name)
        | [] => none
      else namedBackend? rest

/-- The text about an option in the place of the command. -/
def usageText (flag : String) : String :=
  "unrecognized flag '" ++ flag ++ "'\n\nUsage: hydra [--execute-on-runner <IPV4>] " ++
    "[--dry-run-hydra] [-b <NAME>] <COMMAND>..."

/-- The first token of a command if it is an option. -/
def misplacedFlag? (command : List String) : Option String :=
  command.head?.filter fun token => Text.startsWith ['-'] token.toList

def targetOf (runner : Option String) : RunResult Target :=
  match runner with
  | some address => Target.ofAddress address
  | none => .ok .here

def backendOf (name : Option String) : RunResult (Option Backend) :=
  match name with
  | some name => (Backend.parse name).map some
  | none => .ok none

def tokensOf (a : DispatchArgs) : List String :=
  (match a.backend with
    | some name => ["--backend", name]
    | none => []) ++ a.command

def ofArgs (a : DispatchArgs) : Except ProgramError Invocation :=
  match misplacedFlag? a.command with
  | some flag => .error (.usage (usageText flag))
  | none =>
    Except.mapError ProgramError.run do
      let target ← targetOf a.runner
      let backend ← backendOf (a.backend.or (namedBackend? a.command))
      .ok { tokens := tokensOf a, backend, target }

end Invocation

end Stagehand
