import Stagehand.Branch.Event
import Stagehand.Decimal.Seconds

/-!
# What is shown on a terminal

Messages, progress and summaries as coloured lines. Every text ends with a line feed.
-/

namespace Stagehand.Report

/-! ## Messages -/

/-- A text between the codes that switch a style on and off. -/
def styled (style text : String) : String := "\x1b[" ++ style ++ "m" ++ text ++ "\x1b[0m"

/-- Fills a text up to a width with blanks behind it. -/
def padRight (width : Nat) (s : String) : String :=
  s ++ String.ofList (List.replicate (width - s.length) ' ')

/-- Fills a text up to a width with blanks in front of it. -/
def padLeft (width : Nat) (s : String) : String :=
  String.ofList (List.replicate (width - s.length) ' ') ++ s

/-- What is being done. -/
def status (action message : String) : String :=
  styled "1;36" (padLeft 12 action) ++ " " ++ message ++ "\n"

/-- Something went well. -/
def success (message : String) : String := styled "1;32" "  \u2713" ++ " " ++ message ++ "\n"

/-- Something went wrong. -/
def failure (message : String) : String := styled "1;31" "  \u2717" ++ " " ++ message ++ "\n"

def warning (message : String) : String := styled "33" "  !" ++ " " ++ message ++ "\n"

def error (message : String) : String := styled "1;31" "error:" ++ " " ++ message ++ "\n"

def info (message : String) : String := styled "36" "  i" ++ " " ++ message ++ "\n"

/-- A line about something that went well. -/
def dimSuccess (message : String) : String := styled "32" message ++ "\n"

/-- A line about something that went wrong. -/
def dimFailure (message : String) : String := styled "31" message ++ "\n"

def dimWarning (message : String) : String := styled "33" message ++ "\n"

def stepOutput (line : String) : String := "        | " ++ line ++ "\n"

def stepError (line : String) : String := styled "31" ("        | " ++ line) ++ "\n"

def header (message : String) : String := styled "1" ("==> " ++ message) ++ "\n"

/-- A message between two rules. -/
def banner (message : String) : String :=
  let rule := styled "1;33" (String.ofList (List.replicate (message.length + 4) '=')) ++ "\n"
  rule ++ styled "1;33" ("  " ++ message) ++ "\n" ++ rule

/-! ## Progress -/

/-- The sign of a stage's status. -/
def sign : StageStatus → String
  | .succeeded => "OK"
  | .failed => "FAIL"
  | .timedOut => "TIMEOUT"
  | .skipped => "SKIP"

def inBrackets (millis : Nat) : String := "(" ++ Decimal.secondsToHundredths millis ++ "s)"

/-- The start of a line about a branch. -/
def branchMark (axis : String) : String := "    [" ++ axis ++ "] "

def stageLine (axis : String) (r : StageRecord) : String :=
  let line := branchMark axis ++ r.stage.name ++ " " ++ sign r.status ++ " " ++
    inBrackets r.duration
  (match r.status with
    | .succeeded => dimSuccess line
    | .skipped => dimWarning line
    | .failed | .timedOut => dimFailure line) ++
  (match r.error with
    | some e => stepError e
    | none => "")

/-- A message about a branch or about the whole run. -/
def logLine (level : LogLevel) (message : String) (axis : Option String) : String :=
  let message := match axis with
    | some a => "[" ++ a ++ "] " ++ message
    | none => message
  match level with
  | .debug => ""
  | .info => info message
  | .warning => warning message
  | .error => error message

/-- Progress as it is shown. -/
def event : Event → String
  | .runStarted branches => "\n" ++ header ("Run started (" ++ toString branches ++ " branches)")
  | .runCompleted overall duration =>
    let message :=
      "Run " ++ overall.name ++ " after " ++ Decimal.secondsToHundredths duration ++ "s"
    "\n" ++ (match overall with
      | .passed => success message
      | .degraded => warning message
      | .failing => failure message)
  | .branchStarted axis testId => status "Branch" ("'" ++ axis ++ "' (test id " ++ testId ++ ")")
  | .branchCompleted axis ended duration =>
    let message := "Branch '" ++ axis ++ "' " ++ ended.name ++ " " ++ inBrackets duration
    match ended with
    | .passed => success message
    | .degraded => warning message
    | .failed => failure message
  | .stageStarted axis stage => branchMark axis ++ stage.name ++ " ...\n"
  | .stageCompleted axis r => stageLine axis r
  | .sweepInvoked axis stage ok =>
    let line := branchMark axis ++ "sweep re-ran " ++ stage.name
    if ok then dimWarning line else dimFailure (line ++ " and it failed")
  | .artifactsArchived axis ok =>
    if ok then dimSuccess (branchMark axis ++ "artifacts archived")
    else dimFailure (branchMark axis ++ "artifacts could not be archived")
  | .log level message axis => logLine level message axis

/-! ## Summaries -/

def branchLine (axis : String) (o : BranchOutcome) : String :=
  let artifacts := if o.artifactsCollected then "artifacts" else "no artifacts"
  let line := "  " ++ padRight 24 axis ++ " " ++ padRight 9 o.status.name ++ " " ++
    padRight 13 artifacts ++ " " ++ o.testId
  (match o.status with
    | .passed => dimSuccess line
    | .degraded => dimWarning line
    | .failed => dimFailure line) ++
  (match o.error with
    | some e => stepError e
    | none => "")

/-- The table of a run. -/
def summary (s : RunSummary) : String :=
  "\n" ++
  header ("Summary: " ++ toString (s.count .passed) ++ " passed, " ++
    toString (s.count .degraded) ++ " degraded, " ++ toString (s.count .failed) ++ " failed") ++
  String.join (s.branches.toList.map fun b => branchLine b.1 b.2)

end Stagehand.Report
