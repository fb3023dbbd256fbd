import Stagehand.Command.Executor

/-!
# Rehearsed commands

An executor that follows a script: each command is noted, then answered as the first rule for it
says. A rule may ask for a program, for a text in the arguments, and for how often it has been met.
Without a rule a command succeeds at once and prints nothing.

Commands that were left behind are noted as soon as a command that goes on has to wait; the files
that they make appear when their own time is over.
-/

namespace Stagehand.Rehearsal

/-- A file or directory that a command makes. -/
structure Planting where
  path : String
  entry : FileEntry

/-- A rule for commands. Delays are in seconds. -/
structure CommandRule where
  program : Option String := none
  contains : Option String := none
  /-- Which of the commands that the rule is met by it answers, if not all. -/
  nth : Option Nat := none
  delay : Nat := 0
  makes : Option Planting := none
  error : Option RunError := none
  output : CommandOutput := { exitCode := some 0 }

/-- What is noted of a command. -/
structure CommandNote where
  time : Nat
  spec : CommandSpec
  limit : Option Nat

/-- What a rehearsal has seen. -/
structure CommandLog where
  notes : List CommandNote := []
  /-- How often each rule was met. -/
  met : List Nat := []
  /-- Files that commands left behind make, with the time of each. -/
  due : List (Nat × Planting) := []

/-- A rule is met by a command. -/
def CommandRule.isMetBy (r : CommandRule) (c : CommandSpec) : Bool :=
  (match r.program with
    | some p => c.program == p
    | none => true) &&
  (match r.contains with
    | some text => Text.contains (Text.joinWith " " c.argv) text
    | none => true)

/-- The first rule that answers a command, and how often each rule was met after it. -/
def choose (c : CommandSpec) : List CommandRule → List Nat → Option CommandRule × List Nat
  | [], _ => (none, [])
  | r :: rest, met =>
    let count := met.headD 0
    if r.isMetBy c then
      if r.nth == none || r.nth == some (count + 1) then
        (some r, (count + 1) :: met.drop 1)
      else
        let (found, later) := choose c rest (met.drop 1)
        (found, (count + 1) :: later)
    else
      let (found, later) := choose c rest (met.drop 1)
      (found, count :: later)

def makeNow (p : Planting) (h : Host CommandLog) : Host CommandLog :=
  { h with files := h.files.plant h.cwd p.path p.entry }

/-- Makes what is due before a time. -/
def makeDue (isDue : Nat → Bool) (h : Host CommandLog) : Host CommandLog :=
  let ready := h.tools.due.filter fun d => isDue d.1
  let rest := h.tools.due.filter fun d => !isDue d.1
  ready.foldl (fun h d => makeNow d.2 h) { h with tools := { h.tools with due := rest } }

/-- Notes a command and chooses its rule. -/
def issue (rules : List CommandRule) (c : CommandSpec) (limit : Option Nat) (now : Nat)
    (h : Host CommandLog) : Option CommandRule × Host CommandLog :=
  let log := h.tools
  let met := log.met ++ List.replicate (rules.length - log.met.length) 0
  let (rule, met) := choose c rules met
  (rule, { h with tools := { log with notes := log.notes ++ [⟨now, c, limit⟩], met } })

def issueLeft (rules : List CommandRule) (now : Nat) (h : Host CommandLog) : Host CommandLog :=
  h.leftBehind.foldl
    (fun h c =>
      match issue rules c none now h with
      | (some r, h) =>
        match r.makes with
        | some p =>
          { h with tools := { h.tools with due := h.tools.due ++ [(now + r.delay * 1000, p)] } }
        | none => h
      | (none, h) => h)
    { h with leftBehind := [] }

/-- What goes on while a command waits. -/
def meanwhile (rules : List CommandRule) (now : Nat) (h : Host CommandLog) : Host CommandLog :=
  makeDue (· ≤ now) (issueLeft rules now h)

def runCommand (rules : List CommandRule) (c : CommandSpec) (limit : Option Nat) :
    Timed (Host CommandLog) (RunResult CommandOutput) := do
  let start ← Timed.now
  let rule ← Timed.modifyGet fun h => issue rules c limit start (makeDue (· < start) h)
  match rule with
  | none => pure (.ok { exitCode := some 0 })
  | some r =>
    Timed.waitWhile (meanwhile rules) (r.delay * 1000)
    let ended ← Timed.now
    Timed.modify fun h =>
      let h := makeDue (· < ended) h
      match r.makes with
      | some p => makeNow p h
      | none => h
    match r.error with
    | some e => pure (.error e)
    | none => pure (.ok r.output)

def executor (simulated : Bool) (rules : List CommandRule) : Executor CommandLog where
  simulated
  run := runCommand rules

/-- Lets everything that was left behind come to its end. -/
def settle (rules : List CommandRule) (now : Nat) (h : Host CommandLog) : Host CommandLog :=
  makeDue (fun _ => true) (issueLeft rules now h)

end Stagehand.Rehearsal
