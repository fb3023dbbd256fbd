import Stagehand.Shell.Builtin.Words

/-!
# Jobs and signals

The built-in commands on commands in the background and on signals. A job that a script has waited
for keeps its status until its place is taken by a new one.
-/

namespace Stagehand.Shell

open Sh

/-! ## Jobs -/

/-- The process that tells how a job ended. -/
def Job.last (j : Job) : Nat := j.members.getLast?.getD 0

def Job.isDone (m : Machine) (j : Job) : Bool := j.members.all fun id => (m.ending? id).isSome

/-- The first place for a new job, and the jobs that are left if it takes it. -/
def placeForJob (m : Machine) (jobs : List Job) : Nat × List Job :=
  let isFree := fun n : Nat =>
    match jobs.find? fun j => j.number == n with
    | none => true
    | some j => j.isWaited && j.isDone m
  let n := ((List.range (jobs.length + 1)).find? fun k => isFree (k + 1)).getD jobs.length + 1
  (n, jobs.filter fun j => j.number != n)

/-- Gives a job that was waited for up if a new one takes its place. -/
def takePlace : Sh Unit := do
  let m ← machine
  change fun s => { s with jobs := (placeForJob m s.jobs).2 }

/-- Puts processes into the background as a job. -/
def addJob (members : List Nat) : Sh Unit := do
  let m ← machine
  change fun s =>
    let (number, jobs) := placeForJob m s.jobs
    { s with jobs := { number, members } :: jobs, lastJob := members.getLast? }

/-- The job that a word names: a number behind a percent sign, or a sign for the current one. -/
def jobOf? (s : ShellState) (word : String) : Option Job :=
  match word.toList with
  | ['%'] | ['%', '%'] | ['%', '+'] => s.jobs.head?
  | ['%', '-'] => s.jobs[1]?
  | '%' :: digits =>
    (countOf? (String.ofList digits)).bind fun n => s.jobs.find? fun j => j.number == n
  | _ => none

/-- The job that a word names, which has to be there. -/
def needJob (word : String) : Sh Job := do
  match jobOf? (← shell) word with
  | some j => return j
  | none => fail ("No such job: " ++ word)

/-! ## Waiting -/

/-- Reports the end of a process by a signal, unless its parent knew of it. -/
def reportEnd (wasKnown : Bool) (e : Exit) : Sh Unit :=
  match e with
  | .signal n => do if isReported n && !wasKnown then note (signalText n ++ "\n")
  | .status _ => return ()

/-- Waits until the machine is ready, or until signals have to be attended to; answers
the signal. -/
def awaitUnlessSignal (ready : Machine → Bool) : Sh (Option Nat) := do
  let id := (← machine).current
  awaitMachine fun m => ready m || hasSignals id m
  let m ← machine
  changeMachine fun m => m.collect id
  return if ready m then none else ((m.member? id).bind fun x => x.signals.head?)

/-- Waits for a job; answers a signal that has to be attended to first. -/
def awaitJob (j : Job) : Sh (Option Nat) := do
  let known := (← machine).isGone
  match ← awaitUnlessSignal j.isDone with
  | some signal => return some signal
  | none =>
    let m ← machine
    j.members.forM fun id => do
      match m.ending? id with
      | some e => reportEnd (known id) e
      | none => pure ()
    change fun s =>
      { s with jobs := s.jobs.map fun k =>
        if k.number == j.number then { k with isWaited := true } else k }
    return none

/-- Waits for the jobs that words name; `status` is what was answered so far. -/
def waitFor : Nat → List String → Sh Unit
  | status, [] => setStatus status
  | status, word :: rest => do
    let job ← if word.startsWith "%" then some <$> needJob word
      else do
        let id ← needCount word
        pure ((← shell).jobs.find? fun j => j.last == id)
    match job with
    | none => waitFor status rest
    | some j =>
      match ← awaitJob j with
      | some signal => setStatus (128 + signal)
      | none => waitFor (((← machine).ending? j.last).getD (.status 127)).code rest

def waitCommand (args : List String) : Sh Unit := do
  let g ← needOptions "" args
  if g.rest.isEmpty then
    let jobs := (← shell).jobs
    match ← awaitUnlessSignal fun m => jobs.all fun j => j.isDone m with
    | some signal => setStatus (128 + signal)
    | none =>
      change fun s => { s with jobs := s.jobs.map fun j => { j with isWaited := true } }
      setStatus 0
  else waitFor 127 g.rest

/-! ## Telling jobs -/

def jobText (m : Machine) (j : Job) : String :=
  if !j.isDone m then "Running"
  else
    match m.ending? j.last with
    | some (.signal n) => signalText n
    | some (.status 0) | none => "Done"
    | some (.status n) => "Done(" ++ toString n ++ ")"

/-- A text filled up with blanks. -/
def padded (width : Nat) (text : String) : String :=
  text ++ String.ofList (List.replicate (width - text.length) ' ')

/-- How a job is told; `mark` tells whether it is the current one. -/
def shownJob (m : Machine) (long : Bool) (mark : Char) (j : Job) : String :=
  let front := "[" ++ toString j.number ++ "] " ++ String.singleton mark ++ " "
  let id := fun n : Nat => if long then toString n ++ " " else ""
  let first := padded 33 (front ++ id (j.members.headD 0) ++ jobText m j)
  let indent := String.ofList (List.replicate front.length ' ')
  if long then
    String.intercalate " |\n"
      (first :: (j.members.drop 1).map fun n => padded 33 (indent ++ id n)) ++ "\n"
  else first ++ String.join ((j.members.drop 1).map fun _ => " | ") ++ "\n"

/-- Tells jobs; those that have ended are told for the last time. -/
def jobsCommand (args : List String) : Sh Unit := do
  let g ← needOptions "lp" args
  let s ← shell
  let chosen ← if g.rest.isEmpty then pure s.jobs else g.rest.mapM needJob
  changeMachine fun m => m.collect m.current
  let m ← machine
  let marks := (s.jobs.map (·.number)).zip ['+', '-']
  chosen.forM fun j => do
    if g.has 'p' then print (toString (j.members.headD 0) ++ "\n")
    else
      print (shownJob m (g.has 'l') ((marks.lookup j.number).getD ' ') j)
      if j.isDone m then
        change fun s => { s with jobs := s.jobs.filter fun k => k.number != j.number }
  setStatus 0

/-- Takes a job up again, which only a shell with job control could do. -/
def resumeJob (args : List String) : Sh Unit := do
  match args with
  | [] =>
    if (← shell).jobs.isEmpty then fail "No current job"
    else fail "job (null) not created under job control"
  | word :: _ =>
    let _ ← needJob word
    fail ("job " ++ word ++ " not created under job control")

/-! ## Sending signals -/

/-- What a list of words for sending signals asks for. -/
inductive KillRequest where
  | send (signal : Nat) (targets : List String)
  | tell (words : List String)
  | usage

/-- How signals are sent. -/
def killUsage : String :=
  "Usage: kill [-s sigspec | -signum | -sigspec] [pid | job]... or\nkill -l [exitstatus]"

def readKill : List String → Sh KillRequest
  | [] => return .usage
  | word :: rest => do
    match word.toList with
    | '-' :: cs =>
      match signalNumber? (String.ofList cs) with
      | some n => return if rest.isEmpty then .usage else .send n rest
      | none =>
        let g ← needOptions "ls:" (word :: rest)
        let signal ← match (g.options.filter fun o => o.1 == 's').getLast? with
          | none => pure 15
          | some o =>
            match signalNumber? o.2 with
            | some n => pure n
            | none => fail ("invalid signal number or name: " ++ o.2)
        return if g.has 'l' then .tell g.rest else if g.rest.isEmpty then .usage
          else .send signal g.rest
    | _ => return .send 15 (word :: rest)

/-- Sends a signal to a process; answers whether it is there. -/
def sendSignal (signal : Nat) (target : String) : Sh Bool := do
  if target.startsWith "%" then
    let _ ← needJob target
    return false
  else if target.startsWith "-" then
    let _ ← needCount (String.ofList (target.toList.drop 1))
    return false
  else
    let id ← needCount target
    let m ← machine
    let isThere := id == 0 || id == 1 || !m.isGone id
    changeMachine (Machine.deliver signal id)
    obey
    return isThere

/-- Sends signals, or tells their names. -/
def killCommand (args : List String) : Sh Unit := do
  match ← readKill args with
  | .usage => fail killUsage
  | .tell [] =>
    print (asLines ("0" :: signalNames.drop 1))
    setStatus 0
  | .tell (word :: _) =>
    let n ← needCount word
    let n := if 128 < n then n - 128 else n
    if 0 < n && n < signalNames.length then
      print (asLines [signalName n])
      setStatus 0
    else fail ("invalid signal number or exit status: " ++ word)
  | .send signal targets =>
    let sent ← targets.mapM fun target => do
      let isThere ← sendSignal signal target
      if !isThere then complain "No such process\n"
      pure isThere
    setTruth (sent.all id)

end Stagehand.Shell
