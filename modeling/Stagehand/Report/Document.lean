import Stagehand.Branch.Outcome
import Stagehand.Decimal.Seconds

/-!
# Summaries as documents

A summary is written as a JSON document: two blanks per level, one member a line, members in a fixed
order. Durations are seconds in their shortest form. What is absent is left out.
-/

namespace Stagehand.Report

/-! ## JSON values and their text -/

/-- A JSON value; numbers are held as their text. -/
inductive Json where
  | number (text : String)
  | text (s : String)
  | bool (b : Bool)
  | list (items : List Json)
  | object (members : List (String × Json))

namespace Json

/-- A character inside a JSON string. -/
def escapeChar (c : Char) : List Char :=
  if c = '"' then ['\\', '"']
  else if c = '\\' then ['\\', '\\']
  else if c = '\n' then ['\\', 'n']
  else if c = '\r' then ['\\', 'r']
  else if c = '\t' then ['\\', 't']
  else if c.toNat = 8 then ['\\', 'b']
  else if c.toNat = 12 then ['\\', 'f']
  else if c.toNat < 32 then
    ['\\', 'u', '0', '0', Nat.digitChar (c.toNat / 16), Nat.digitChar (c.toNat % 16)]
  else [c]

/-- A JSON string. -/
def quote (s : String) : String := "\"" ++ String.ofList (s.toList.flatMap escapeChar) ++ "\""

def indent (depth : Nat) : String := String.ofList (List.replicate (2 * depth) ' ')

mutual

/-- The text of a value whose first line starts at a depth. -/
def render (depth : Nat) : Json → String
  | number digits => digits
  | text s => quote s
  | bool b => if b then "true" else "false"
  | list [] => "[]"
  | list items => "[\n" ++ renderItems (depth + 1) items ++ "\n" ++ indent depth ++ "]"
  | object [] => "\x7b\x7d"
  | object members =>
    "\x7b\n" ++ renderMembers (depth + 1) members ++ "\n" ++ indent depth ++ "\x7d"

/-- The lines of list items. -/
def renderItems (depth : Nat) : List Json → String
  | [] => ""
  | [item] => indent depth ++ render depth item
  | item :: rest => indent depth ++ render depth item ++ ",\n" ++ renderItems depth rest

def renderMembers (depth : Nat) : List (String × Json) → String
  | [] => ""
  | [(name, value)] => indent depth ++ quote name ++ ": " ++ render depth value
  | (name, value) :: rest =>
    indent depth ++ quote name ++ ": " ++ render depth value ++ ",\n" ++ renderMembers depth rest

end

end Json

/-! ## Summaries -/

def ofDuration (millis : Nat) : Json := .number (Decimal.secondsText millis)

/-- A member that may be absent. -/
def optional (name : String) : Option String → List (String × Json)
  | some s => [(name, .text s)]
  | none => []

def ofRecord (r : StageRecord) : Json :=
  .object
    ([("stage", .text r.stage.name), ("status", .text r.status.name),
      ("duration", ofDuration r.duration)] ++ optional "error" r.error)

def ofLedger (l : Ledger) : Json :=
  .object (TerminalStage.order.map fun s => (s.name, .bool (l.isComplete s)))

def ofOutcome (o : BranchOutcome) : Json :=
  .object
    ([("axis", .text o.axis), ("test_id", .text o.testId), ("status", .text o.status.name),
      ("stages", .list (o.stages.map ofRecord)), ("ledger", ofLedger o.ledger),
      ("artifacts_collected", .bool o.artifactsCollected)] ++
      optional "runner_ip" (o.runner.map Network.Address.render) ++ optional "error" o.error ++
      [("duration", ofDuration o.duration)])

def ofSummary (s : RunSummary) : Json :=
  .object
    [("overall", .text s.overall.name),
     ("branches", .object (s.branches.toList.map fun b => (b.1, ofOutcome b.2))),
     ("duration", ofDuration s.duration)]

def summaryDocument (s : RunSummary) : String := (ofSummary s).render 0

end Stagehand.Report
