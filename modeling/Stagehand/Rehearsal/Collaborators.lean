import Stagehand.Branch.Collaborators

/-!
# Rehearsed collaborators

Collaborators that follow a script: each call is noted, then answered as the first rule for it says.
Without a rule a call succeeds at once.
-/

namespace Stagehand.Rehearsal

inductive Call where
  | checkout
  | createRunner
  | runTest
  | collectLogs
  | cleanResources
  | sendEmail
  | copyArtifacts
  deriving DecidableEq, Repr

namespace Call

def all : List Call :=
  [checkout, createRunner, runTest, collectLogs, cleanResources, sendEmail, copyArtifacts]

def name : Call → String
  | checkout => "checkout"
  | createRunner => "create_runner"
  | runTest => "run_test"
  | collectLogs => "collect_logs"
  | cleanResources => "clean_resources"
  | sendEmail => "send_email"
  | copyArtifacts => "copy_artifacts"

end Call

/-- How a call is answered: after some seconds, by breaking down, failing or succeeding. -/
structure Response where
  delay : Nat := 0
  breaks : Bool := false
  error : Option RunError := none
  /-- The address of a runner that was created. -/
  address : Network.Address := ⟨10, 0, 0, 5⟩

/-- A rule: which call it answers, on which axis if not on all, and how. -/
structure CallRule where
  call : Call
  axis : Option String := none
  response : Response

/-- What is noted of a call. Times are in milliseconds, limits in seconds. -/
structure CallNote where
  call : Call
  time : Nat
  context : BranchContext
  limit : Option Nat := none
  target : Option Target := none
  build : Option BuildResult := none
  destination : Option String := none

/-- The response to a call on an axis. -/
def responseTo (script : List CallRule) (call : Call) (axis : String) : Response :=
  match script.find? fun r => r.call == call && (r.axis == none || r.axis == some axis) with
  | some r => r.response
  | none => {}

/-- Notes a call and answers it. -/
def answer {α : Type} (script : List CallRule) (call : Call) (ctx : BranchContext)
    (note : CallNote → CallNote) (value : Response → α) : Timed (List CallNote) (RunResult α) := do
  let time ← Timed.now
  Timed.modify fun notes => notes ++ [note { call, time, context := ctx }]
  let r := responseTo script call ctx.axis
  Timed.wait (r.delay * 1000)
  if r.breaks then Timed.fail
  else
    match r.error with
    | some e => pure (.error e)
    | none => pure (.ok (value r))

/-- Collaborators that follow a script. -/
def collaborators (script : List CallRule) : Collaborators (List CallNote) where
  checkout ctx := answer script .checkout ctx id fun _ => ()
  createRunner ctx limit :=
    answer script .createRunner ctx (fun n => { n with limit := some limit }) (·.address)
  runTest ctx target limit :=
    answer script .runTest ctx (fun n => { n with limit := some limit, target := some target })
      fun _ => ()
  collectLogs ctx target limit :=
    answer script .collectLogs ctx (fun n => { n with limit := some limit, target := some target })
      fun _ => ()
  cleanResources ctx target limit :=
    answer script .cleanResources ctx
      (fun n => { n with limit := some limit, target := some target })
      fun _ => ()
  sendEmail ctx build limit :=
    answer script .sendEmail ctx (fun n => { n with limit := some limit, build := some build })
      fun _ => ()
  copyArtifacts ctx target destination :=
    answer script .copyArtifacts ctx
      (fun n => { n with target := some target, destination := some destination }) fun _ => ()

end Stagehand.Rehearsal
