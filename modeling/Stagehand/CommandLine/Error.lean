import Stagehand.Error

/-!
# How a program fails

The failures that end one of the programs, their wording, and the status that the
program gives back.
-/

namespace Stagehand

/-- Why a program ended. -/
inductive ProgramError where
  /-- The command line cannot be carried out; the text says how to use the program. -/
  | usage (text : String)
  | run (cause : RunError)
  | file (cause : FileError)
  | logging (reason : String)
  /-- The run as a whole did not come to its end. -/
  | unfinished (reason : String)
  /-- No branch has artifacts. -/
  | noArtifacts
  deriving DecidableEq, Repr

namespace ProgramError

/-- The wording of a failure. -/
def message : ProgramError → String
  | usage text => text
  | run cause => cause.message
  | file cause => "io error: " ++ cause.message
  | logging reason => "logging setup failed: " ++ reason
  | unfinished reason => "run did not complete: " ++ reason
  | noArtifacts => "run failing: no branch collected artifacts"

/-- The status of a program that ends with this failure. -/
def exitCode : ProgramError → Int
  | run cause => cause.exitCode
  | usage _ | file _ | logging _ | unfinished _ | noArtifacts => 1

end ProgramError

/-! ## Log formats -/

inductive LogFormat where
  | pretty
  | compact
  | json
  deriving DecidableEq, Repr

namespace LogFormat

def name : LogFormat → String
  | pretty => "pretty"
  | compact => "compact"
  | json => "json"

/-- Reads a name, in any case of its letters and with blanks around it. -/
def parse (s : String) : Except ProgramError LogFormat :=
  let wanted := Text.asciiLower (Text.trim s)
  match [pretty, compact, json].find? fun f => f.name == wanted with
  | some f => .ok f
  | none =>
    .error (.logging
      ("unknown log format '" ++ wanted ++ "', expected 'pretty', 'compact' or 'json'"))

end LogFormat

end Stagehand
