import Stagehand.Error
import Stagehand.NameMap
import Stagehand.Shell.Quote

/-!
# Commands and their secrets

A command is a program with arguments, variables and a working directory. Some of its texts are
**secrets**: the values of variables with a sensitive name, and those registered by hand. Wherever
the command is shown, a secret is masked, raw or in the form it has inside single quotes.

The secrets are kept from longest to shortest, so that one that contains another is masked whole.
-/

namespace Stagehand

/-! ## Sensitive names -/

/-- What is shown in place of a secret. -/
def mask : String := "***"

/-- Parts of the names of sensitive variables. -/
def sensitiveMarkers : List String := ["SECRET", "TOKEN", "PASSWORD", "CREDENTIAL", "KEY"]

/-- The name of a variable whose value is never shown. -/
def isSensitive (name : String) : Bool :=
  sensitiveMarkers.any fun marker => Text.contains (Text.asciiUpper name) marker

/-! ## Commands -/

structure CommandSpec where
  program : String
  args : List String := []
  /-- Variables set on top of those that the command inherits. -/
  env : NameMap String := NameMap.empty
  workdir : Option String := none
  /-- Texts that are never shown, longest first. -/
  secrets : List String := []
  deriving DecidableEq

namespace CommandSpec

/-- Puts a secret behind those that are at least as long. -/
def insertSecret (s : String) : List String → List String
  | [] => [s]
  | t :: ts => if t.utf8ByteSize < s.utf8ByteSize then s :: t :: ts else t :: insertSecret s ts

def secret (c : CommandSpec) (value : String) : CommandSpec :=
  if value.isEmpty || c.secrets.contains value then c
  else { c with secrets := insertSecret value c.secrets }

def arg (c : CommandSpec) (a : String) : CommandSpec := { c with args := c.args ++ [a] }

def withArgs (c : CommandSpec) (as : List String) : CommandSpec := { c with args := c.args ++ as }

/-- Sets a variable; the value of a sensitive one becomes a secret. -/
def setEnv (c : CommandSpec) (name value : String) : CommandSpec :=
  let c := if isSensitive name then c.secret value else c
  { c with env := c.env.insert name value }

def withEnv (c : CommandSpec) (vars : List (String × String)) : CommandSpec :=
  vars.foldl (fun c v => c.setEnv v.1 v.2) c

def inDir (c : CommandSpec) (dir : String) : CommandSpec := { c with workdir := some dir }

def argv (c : CommandSpec) : List String := c.program :: c.args

/-! ## Showing a command -/

/-- Masks one secret, raw and then quoted. -/
def maskSecret (secret : List Char) (text : List Char) : List Char :=
  let text := Text.replaceAll secret mask.toList text
  let quoted := Shell.escapeQuotes secret
  if quoted = secret then text else Text.replaceAll quoted mask.toList text

/-- A text with every secret masked. -/
def redact (c : CommandSpec) (text : String) : String :=
  String.ofList (c.secrets.foldl (fun text s => maskSecret s.toList text) text.toList)

/-- The command line, quoted for a shell and masked. -/
def commandLine (c : CommandSpec) : String :=
  c.redact (Text.joinWith " " (c.argv.map fun a => Shell.quote (c.redact a)))

def shownVariable (c : CommandSpec) (v : String × String) : String :=
  v.1 ++ "=" ++ (if isSensitive v.1 then mask else Shell.quote (c.redact v.2)) ++ " "

/-- The command line with its variables in front. -/
def display (c : CommandSpec) : String :=
  String.join (c.env.toList.map c.shownVariable) ++ c.commandLine

end CommandSpec

/-! ## Results -/

/-- What a finished command leaves. -/
structure CommandOutput where
  stdout : String := ""
  stderr : String := ""
  /-- The status, unless the command was killed. -/
  exitCode : Option Int := none
  deriving DecidableEq, Repr

namespace CommandOutput

/-- The command ended with status zero. -/
def success (o : CommandOutput) : Bool := o.exitCode == some 0

/-- A failure unless the command succeeded. -/
def check (o : CommandOutput) (c : CommandSpec) : RunResult CommandOutput :=
  if o.success then .ok o
  else .error (.command c.commandLine o.exitCode (c.redact o.stderr))

end CommandOutput

end Stagehand
