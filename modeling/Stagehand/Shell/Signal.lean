/-!
# Signals

The signals that processes send to one another, by number and by name. The number zero is no signal;
as a name it stands for the end of a script.
-/

namespace Stagehand.Shell

def signalNames : List String :=
  ["EXIT", "HUP", "INT", "QUIT", "ILL", "TRAP", "ABRT", "BUS", "FPE", "KILL", "USR1", "SEGV",
    "USR2", "PIPE", "ALRM", "TERM", "16", "CHLD", "CONT", "STOP", "TSTP", "TTIN", "TTOU", "URG",
    "XCPU", "XFSZ", "VTALRM", "PROF", "WINCH", "IO", "PWR", "SYS", "32", "33", "RTMIN"] ++
    ((List.range 15).map fun n => "RTMIN+" ++ toString (n + 1)) ++
    ((List.range 14).map fun n => "RTMAX-" ++ toString (14 - n)) ++ ["RTMAX"]

/-- The number of a signal that is written as a number, or by its name in either case. -/
def signalNumber? (s : String) : Option Nat :=
  if s != "" && s.toList.all Char.isDigit then s.toNat?.filter (· < signalNames.length)
  else signalNames.idxOf? (String.ofList (s.toList.map Char.toUpper))

def signalName (n : Nat) : String := signalNames[n]?.getD (toString n)

/-- What a signal does unless it is trapped. -/
inductive SignalEffect where
  | nothing
  | stops
  | kills
  deriving DecidableEq, Repr

def signalEffect (n : Nat) : SignalEffect :=
  if [0, 17, 18, 23, 28].contains n then .nothing
  else if [19, 20, 21, 22].contains n then .stops
  else .kills

/-- How the end of a program by a signal is told. -/
def signalText (n : Nat) : String :=
  match n with
  | 1 => "Hangup"
  | 2 => "Interrupt"
  | 3 => "Quit"
  | 4 => "Illegal instruction"
  | 5 => "Trace/breakpoint trap"
  | 6 => "Aborted"
  | 7 => "Bus error"
  | 8 => "Floating point exception"
  | 9 => "Killed"
  | 10 => "User defined signal 1"
  | 11 => "Segmentation fault"
  | 12 => "User defined signal 2"
  | 13 => "Broken pipe"
  | 14 => "Alarm clock"
  | 15 => "Terminated"
  | 16 => "Stack fault"
  | 24 => "CPU time limit exceeded"
  | 25 => "File size limit exceeded"
  | 26 => "Virtual timer expired"
  | 27 => "Profiling timer expired"
  | 29 => "I/O possible"
  | 30 => "Power failure"
  | 31 => "Bad system call"
  | n =>
    if 34 ≤ n then "Real-time signal " ++ toString (n - 34) else "Unknown signal " ++ toString n

/-- Whether a shell reports the end of a program by a signal. -/
def isReported (n : Nat) : Bool := n != 2 && n != 13

end Stagehand.Shell
