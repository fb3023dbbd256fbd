import Stagehand.Proofs.Remote.Agent

/-!
# The plan of a dispatch

A command that is dispatched to a runner is the last of a plan. What a step of the plan calls for
depends on the outputs of those before it and on the files that are there when its time comes: every
command but the first runs under the agent that the first one started, credentials are copied if
they are there, and the container gets the groups that were listed just before it.

* `Executor.Performs`: what becomes of a plan. Its commands are run one after the other, and the
  first that fails is the last.
* `Dispatcher.remotePlan`: the plan of a dispatch to a runner.
* `Follows`: an activity does what a plan calls for, and nothing else. There is one rule for each
  way to build an activity.

Main result: `Dispatcher.performs_plan`.
-/

namespace Stagehand

open Timed

variable {τ α β : Type}

/-! ## Plans -/

/-- A command that a plan calls for. -/
structure Planned where
  spec : CommandSpec
  /-- In seconds. -/
  limit : Option Nat := none
  /-- What is asked of its output, besides that it succeeds. -/
  check : CommandOutput → RunResult Unit := fun _ => .ok ()

/-- What an answer comes to: an output that can be used, or the failure that ends the plan. -/
def Planned.outcome (p : Planned) : RunResult CommandOutput → RunResult CommandOutput
  | .ok output => do
    let output ← output.check p.spec
    p.check output
    pure output
  | .error err => .error err

/-- A step of a plan: what it calls for after some outputs, among some files. -/
abbrev PlanStep := List CommandOutput → FileTree → List String → Option Planned

/-- A command that was run. -/
structure Performed where
  spec : CommandSpec
  limit : Option Nat
  answer : RunResult CommandOutput

/-- `e.Performs steps outputs now h log ending time h'`: run by `e` after some outputs, from a time
and a host on, the steps come to their outputs or to a failure; what was run is in the log. -/
inductive Executor.Performs (e : Executor τ) : List PlanStep → List CommandOutput → Nat → Host τ →
    List Performed → RunResult (List CommandOutput) → Nat → Host τ → Prop where
  | done {outputs : List CommandOutput} {now : Nat} {h : Host τ} :
      e.Performs [] outputs now h [] (.ok outputs) now h
  | skipped {step : PlanStep} {steps : List PlanStep} {outputs : List CommandOutput}
      {now time : Nat}
      {h h' : Host τ} {log : List Performed} {ending : RunResult (List CommandOutput)} :
      step outputs h.files h.cwd = none →
      e.Performs steps outputs now h log ending time h' →
      e.Performs (step :: steps) outputs now h log ending time h'
  | failed {step : PlanStep} {steps : List PlanStep} {outputs : List CommandOutput} {p : Planned}
      {now time : Nat} {h h' : Host τ} {answer : RunResult CommandOutput} {err : RunError} :
      step outputs h.files h.cwd = some p →
      (e.run p.spec p.limit).runUnder none now h = ⟨.done answer, time, h'⟩ →
      p.outcome answer = .error err →
      e.Performs (step :: steps) outputs now h [⟨p.spec, p.limit, answer⟩] (.error err) time h'
  | succeeded {step : PlanStep} {steps : List PlanStep} {outputs : List CommandOutput} {p : Planned}
      {now time later : Nat} {h h' h'' : Host τ} {answer : RunResult CommandOutput}
      {output : CommandOutput} {log : List Performed} {ending : RunResult (List CommandOutput)} :
      step outputs h.files h.cwd = some p →
      (e.run p.spec p.limit).runUnder none now h = ⟨.done answer, time, h'⟩ →
      p.outcome answer = .ok output →
      e.Performs steps (outputs ++ [output]) time h' log ending later h'' →
      e.Performs (step :: steps) outputs now h (⟨p.spec, p.limit, answer⟩ :: log) ending later h''

/-- Every command is answered at some time. -/
def Executor.Answers (e : Executor τ) : Prop := ∀ c limit, (e.run c limit).Finishes

namespace Executor.Performs

variable {e : Executor τ} {steps rest : List PlanStep} {outputs outputs' : List CommandOutput}
  {now time later : Nat} {h h' h'' : Host τ} {log log' : List Performed}
  {ending : RunResult (List CommandOutput)} {err : RunError}

theorem append_of_error (hfirst : e.Performs steps outputs now h log (.error err) time h') :
    e.Performs (steps ++ rest) outputs now h log (.error err) time h' := by
  generalize hfailure : Except.error err = failure at hfirst ⊢
  induction hfirst with
  | done => cases hfailure
  | skipped hstep _ ih => exact .skipped hstep (ih hfailure)
  | failed hstep hrun hfails => exact .failed hstep hrun hfails
  | succeeded hstep hrun hsucceeds _ ih => exact .succeeded hstep hrun hsucceeds (ih hfailure)

theorem append (hfirst : e.Performs steps outputs now h log (.ok outputs') time h')
    (hrest : e.Performs rest outputs' time h' log' ending later h'') :
    e.Performs (steps ++ rest) outputs now h (log ++ log') ending later h'' := by
  generalize hsuccess : Except.ok outputs' = success at hfirst
  induction hfirst with
  | done =>
    cases hsuccess
    exact hrest
  | skipped hstep _ ih => exact .skipped hstep (ih hrest hsuccess)
  | failed => cases hsuccess
  | succeeded hstep hrun hsucceeds _ ih =>
    exact .succeeded hstep hrun hsucceeds (ih hrest hsuccess)

end Executor.Performs

/-! ## The plan for a runner -/

theorem KeyAgent.ofOutput?_eq (simulated : Bool) (output : CommandOutput) :
    ofOutput? simulated output =
      (if simulated then .ok standIn else parse output.stdout).toOption := by
  cases simulated <;> rfl

namespace PlanStep

variable (simulated : Bool)

/-- A step that calls for the same command in any case. -/
def always (p : Planned) : PlanStep := fun _ _ _ => some p

/-- The start of an agent, which has to print where it is. -/
def agentStart : Planned where
  spec := (command "ssh-agent").arg "-s"
  check output := if simulated then .ok () else (KeyAgent.parse output.stdout).map fun _ => ()

/-- The agent that the first command of a plan started. -/
def agent? (outputs : List CommandOutput) : Option KeyAgent :=
  outputs.head?.bind (KeyAgent.ofOutput? simulated)

/-- A step whose command runs under the agent. -/
def underAgent (limit : Option Nat)
    (find : List CommandOutput → FileTree → List String → Option CommandSpec) : PlanStep :=
  fun outputs files cwd => do
    let a ← agent? simulated outputs
    let c ← find outputs files cwd
    some { spec := c.withEnv a.env, limit }

def loadKey (key : String) : PlanStep :=
  underAgent simulated none fun _ _ _ => some ((command "ssh-add").arg key)

/-- The agent that the first command of a log started, if it did. -/
def startedIn? (log : List Performed) : Option KeyAgent :=
  log.head?.bind fun first => KeyAgent.startedBy? simulated (.answered first.spec first.answer)

/-- What is left to be done after a log: its agent is killed. -/
def killAfter (log : List Performed) : List PlanStep :=
  (startedIn? simulated log).toList.map fun a => always { spec := a.kill }

variable {simulated} {outputs : List CommandOutput} {a : KeyAgent} {files : FileTree}
  {cwd : List String}

theorem agent?_append (h : agent? simulated outputs = some a) (more : List CommandOutput) :
    agent? simulated (outputs ++ more) = some a := by
  obtain ⟨first, hfirst, ha⟩ := Option.bind_eq_some_iff.1 h
  rw [agent?, List.head?_append, hfirst]
  exact ha

theorem outcome_agentStart (simulated : Bool) {output : CommandOutput}
    (hsuccess : output.success = true) :
    (agentStart simulated).outcome (.ok output) =
      (if simulated then .ok KeyAgent.standIn else KeyAgent.parse output.stdout).map
        fun _ => output := by
  have hcheck : output.check (agentStart simulated).spec = .ok output := if_pos hsuccess
  rw [Planned.outcome, hcheck]
  cases simulated with
  | true => rfl
  | false =>
    show (((KeyAgent.parse output.stdout).map fun _ => ()) >>= fun _ => pure output) = _
    cases KeyAgent.parse output.stdout <;> rfl

theorem startedIn?_cons (simulated : Bool) (output : CommandOutput) (log : List Performed) :
    startedIn? simulated (⟨KeyAgent.startCommand, none, .ok output⟩ :: log) =
      if output.success = true then KeyAgent.ofOutput? simulated output else none := by
  rw [startedIn?, List.head?_cons, Option.bind_some, KeyAgent.startedBy?]
  simp only [true_and]

theorem underAgent_eq (h : agent? simulated outputs = some a) (limit : Option Nat)
    (find : List CommandOutput → FileTree → List String → Option CommandSpec) :
    underAgent simulated limit find outputs files cwd =
      (find outputs files cwd).map fun c => { spec := c.withEnv a.env, limit } := by
  rw [underAgent, h]
  cases find outputs files cwd <;> rfl

end PlanStep

namespace Dispatcher

open PlanStep

/-- A copy of credentials is made if it is called for, and what is copied is configured
and there. -/
def copyIf (called : Prop) [Decidable called] (source : Option String) (copy : String → CommandSpec)
    (files : FileTree) (cwd : List String) : Option CommandSpec :=
  match source with
  | some path => if called ∧ files.holds cwd path then some (copy path) else none
  | none => none

theorem copyIf_eq (called : Prop) [Decidable called] (source : Option String)
    (copy : String → CommandSpec) (files : FileTree) (cwd : List String) :
    copyIf called source copy files cwd =
      if called then (present files cwd source).map copy else none := by
  cases source with
  | none => simp [copyIf, present]
  | some path =>
    by_cases hcalled : called <;> by_cases hthere : files.holds cwd path <;>
      simp [copyIf, present, Option.filter, hcalled, hthere]

variable (d : Dispatcher) (r : Runner)

/-- The AWS directory is copied unless a key that is not empty travels as a variable. -/
def awsCopy? : FileTree → List String → Option CommandSpec :=
  copyIf (∀ key ∈ d.forwarder.get? "AWS_ACCESS_KEY_ID", key = "") d.settings.awsCredentialsDir
    fun dir => r.push (Path.asDirectory dir) ".aws/"

/-- The GCE file is copied for the backends of GCE. -/
def gceCopy? : FileTree → List String → Option CommandSpec :=
  copyIf (d.backend.bind Backend.provider? = some .gce) d.settings.gceCredentialsFile
    fun file => r.push file ((Path.name? file).getD "")

/-- The Azure directory is copied for the backends of Azure. -/
def azureCopy? : FileTree → List String → Option CommandSpec :=
  copyIf (d.backend.bind Backend.provider? = some .azure) d.settings.azureCredentialsDir
    fun dir => r.push (Path.asDirectory dir) ".azure/"

variable {d r} {files : FileTree} {cwd : List String}

theorem awsPush_eq : d.awsPush r files cwd = d.awsCopy? r files cwd := by
  have hkey : (∀ key ∈ d.forwarder.get? "AWS_ACCESS_KEY_ID", key = "") ↔
      ¬ d.forwarder.hasAwsCredentials := by
    rw [EnvForwarder.hasAwsCredentials, awsKeyVariable]
    cases d.forwarder.get? "AWS_ACCESS_KEY_ID" <;> simp
  rw [awsPush, awsCopy?, copyIf_eq]
  simp only [hkey, ite_not]

theorem providerPush_eq :
    d.providerPush r files cwd = (d.gceCopy? r files cwd).or (d.azureCopy? r files cwd) := by
  rw [providerPush, gceCopy?, azureCopy?, copyIf_eq, copyIf_eq]
  rcases d.backend.bind Backend.provider? with _ | _ | _ | _ <;> simp

/-- What is done on a runner under its agent. The caller's limit is the limit of the container. -/
def stepsUnderAgent (d : Dispatcher) (simulated : Bool) (r : Runner) (c : CommandSpec)
    (limit : Option Nat) : List PlanStep :=
  [underAgent simulated none fun _ _ _ => some (r.push (Path.asDirectory d.workspace) r.workspace),
    underAgent simulated none fun _ files cwd => d.awsCopy? r files cwd,
    underAgent simulated none fun _ files cwd =>
      (d.gceCopy? r files cwd).or (d.azureCopy? r files cwd),
    underAgent simulated none fun _ _ _ => some (r.ssh "id -G"),
    underAgent simulated limit fun outputs _ _ => outputs.getLast?.map fun listed =>
      r.container { d.invocation c r.workspace with groupIds := Text.words listed.stdout }]

/-- The plan of a dispatch to a runner. -/
def remotePlan (d : Dispatcher) (simulated : Bool) (c : CommandSpec) (host : Network.Address)
    (limit : Option Nat) : List PlanStep :=
  always (agentStart simulated) :: d.settings.sshKeys.map (loadKey simulated) ++
    d.stepsUnderAgent simulated (d.runner host) c limit

end Dispatcher

/-! ## Following a plan -/

/-- A result is the failure that ended a plan, or has to do with all of its outputs. -/
def Agrees (V : α → List CommandOutput → Prop) :
    RunResult α → RunResult (List CommandOutput) → Prop
  | .ok a, .ok outputs => V a outputs
  | .error err, .error err' => err = err'
  | _, _ => False

/-- From a time and a host on, an activity ends by itself, and runs the commands that a plan calls
for, and no others, with the same results. -/
def Follows (e : Executor τ) (x : Timed (Host (Watched τ)) (RunResult α)) (steps : List PlanStep)
    (outputs : List CommandOutput) (V : α → List CommandOutput → Prop) (now : Nat)
    (w : Host (Watched τ)) : Prop :=
  x.Reaches none now w
    (fun result time w' => ∃ log ending,
      e.Performs steps outputs now w.unwatched log ending time w'.unwatched ∧
        w'.seenCommands = w.seenCommands ++ log.map Performed.spec ∧ Agrees V result ending)
    fun _ _ => False

section Following

variable {e : Executor τ} {x : Timed (Host (Watched τ)) (RunResult α)}
  {f : α → Timed (Host (Watched τ)) (RunResult β)} {step : PlanStep} {steps rest : List PlanStep}
  {outputs : List CommandOutput} {V V' : α → List CommandOutput → Prop}
  {U : β → List CommandOutput → Prop} {now : Nat} {w : Host (Watched τ)}

theorem follows_pure {a : α} (h : V a outputs) : Follows e (pure (.ok a)) [] outputs V now w :=
  (reaches_pure _).2 ⟨[], .ok outputs, .done, (List.append_nil _).symm, h⟩

theorem follows_none {a : α} (h : V a outputs) (hstep : step outputs w.files w.cwd = none) :
    Follows e (pure (.ok a)) [step] outputs V now w :=
  (reaches_pure _).2 ⟨[], .ok outputs, .skipped hstep .done, (List.append_nil _).symm, h⟩

theorem Follows.mono (h : Follows e x steps outputs V now w)
    (hV : ∀ a outputs, V a outputs → V' a outputs) : Follows e x steps outputs V' now w := by
  refine Reaches.mono h ?_ fun _ _ => id
  rintro (err | a) time w' ⟨log, err' | outputs', hperforms, hseen, hagrees⟩
  · exact ⟨log, _, hperforms, hseen, hagrees⟩
  · exact hagrees.elim
  · exact hagrees.elim
  · exact ⟨log, _, hperforms, hseen, hV _ _ hagrees⟩

/-- One part of a plan is followed after the other, unless the first one fails. -/
theorem follows_onSuccess (hx : Follows e x steps outputs V now w)
    (hf : ∀ a outputs now w, V a outputs → Follows e (f a) rest outputs U now w) :
    Follows e (x.onSuccess f) (steps ++ rest) outputs U now w := by
  rw [Follows, Timed.onSuccess, reaches_bind]
  refine Reaches.mono hx ?_ fun _ _ => id
  rintro (err | a) time w' ⟨log, err' | outputs', hperforms, hseen, hagrees⟩
  · obtain rfl : err = err' := hagrees
    exact (reaches_pure _).2 ⟨log, _, hperforms.append_of_error, hseen, rfl⟩
  · exact hagrees.elim
  · exact hagrees.elim
  · refine Reaches.mono (hf a outputs' time w' hagrees) ?_ fun _ _ => id
    rintro result later w'' ⟨log', ending, hrest, hseen', hagrees'⟩
    refine ⟨log ++ log', ending, hperforms.append hrest, ?_, hagrees'⟩
    rw [hseen', hseen, List.map_append, List.append_assoc]

theorem follows_cons (hx : Follows e x [step] outputs V now w)
    (hf : ∀ a outputs now w, V a outputs → Follows e (f a) rest outputs U now w) :
    Follows e (x.onSuccess f) (step :: rest) outputs U now w := by
  rw [← List.singleton_append]
  exact follows_onSuccess hx hf

theorem follows_holding {a : KeyAgent} (h : Follows e x steps outputs V now w) :
    Follows e (a.holding x) steps outputs V now w := by
  rw [Follows, KeyAgent.holding, reaches_whenAbandoned]
  exact h

theorem reaches_run_watched (he : e.Answers) (c : CommandSpec) (limit : Option Nat) :
    (e.watched.run c limit).Reaches none now w
      (fun answer time w' =>
        (e.run c limit).runUnder none now w.unwatched = ⟨.done answer, time, w'.unwatched⟩ ∧
          w'.seenCommands = w.seenCommands ++ [c])
      fun _ _ => False := by
  rw [Executor.reaches_watched]
  refine (he c limit).reaches_run.mono (fun answer time h hrun => ⟨hrun, ?_⟩) fun _ _ => id
  rw [Host.seenCommands_see_answered]
  exact Host.seenCommands_see_issued c w

theorem follows_runChecked (he : e.Answers) {c : CommandSpec} {limit : Option Nat}
    (hstep : step outputs w.files w.cwd = some { spec := c, limit }) :
    Follows e (e.watched.runChecked c limit) [step] outputs
      (fun output outputs' => outputs' = outputs ++ [output]) now w := by
  rw [Follows, Executor.runChecked, reaches_bind]
  refine (reaches_run_watched he c limit).mono ?_ fun _ _ => id
  rintro (err | output) time w' ⟨hrun, hseen⟩
  · exact (reaches_pure _).2 ⟨_, _, .failed hstep hrun rfl, hseen, rfl⟩
  · refine (reaches_pure _).2 ?_
    cases hcheck : output.check c with
    | error err =>
      have hfails : Planned.outcome { spec := c, limit } (.ok output) = .error err := by
        rw [Planned.outcome, hcheck]
        rfl
      exact ⟨_, _, .failed hstep hrun hfails, hseen, rfl⟩
    | ok output' =>
      have hsucceeds : Planned.outcome { spec := c, limit } (.ok output) = .ok output' := by
        rw [Planned.outcome, hcheck]
        rfl
      exact ⟨_, _, .succeeded hstep hrun hsucceeds .done, hseen, rfl⟩

theorem follows_forget (h : Follows e x steps outputs V now w)
    {U : Unit → List CommandOutput → Prop} (hV : ∀ a outputs, V a outputs → U () outputs) :
    Follows e x.forget steps outputs U now w := by
  rw [← List.append_nil steps]
  exact follows_onSuccess h fun a outputs now w ha => follows_pure (hV a outputs ha)

/-! ## The steps on a runner -/

variable {simulated : Bool} {a : KeyAgent}

open PlanStep

/-- The agent stays the one that the plan started. -/
theorem follows_underAgent (he : e.Answers) (ha : agent? simulated outputs = some a)
    {limit : Option Nat} (find : List CommandOutput → FileTree → List String → Option CommandSpec)
    {c : CommandSpec} (hfind : find outputs w.files w.cwd = some c) :
    Follows e (e.watched.runChecked (c.withEnv a.env) limit)
      [underAgent simulated limit find] outputs
      (fun output outputs' => agent? simulated outputs' = some a ∧ outputs'.getLast? = some output)
      now w := by
  have hstep : underAgent simulated limit find outputs w.files w.cwd =
      some { spec := c.withEnv a.env, limit } := by
    rw [underAgent_eq ha, hfind]
    rfl
  refine (follows_runChecked he hstep).mono ?_
  rintro output outputs' rfl
  exact ⟨agent?_append ha _, List.getLast?_concat⟩

theorem follows_loading (he : e.Answers) (ha : agent? simulated outputs = some a)
    (keys : List String) :
    Follows e (a.loading e.watched keys) (keys.map (loadKey simulated)) outputs
      (fun _ outputs' => agent? simulated outputs' = some a) now w := by
  induction keys generalizing outputs now w with
  | nil => exact follows_pure ha
  | cons key rest ih =>
    have hadded : Follows e (e.watched.runChecked (a.addKey key) none)
      [loadKey simulated key] outputs
        _ now w := follows_underAgent he ha _ rfl
    exact follows_cons (follows_holding hadded) fun _ _ _ _ hadded => ih hadded.1

theorem follows_runIfCalled (he : e.Answers) (ha : agent? simulated outputs = some a)
    {find find' : FileTree → List String → Option CommandSpec}
    (hfind : ∀ files cwd, find files cwd = find' files cwd) :
    Follows e (Dispatcher.runIfCalled e.watched a find)
      [underAgent simulated none fun _ files cwd => find' files cwd] outputs
      (fun _ outputs' => agent? simulated outputs' = some a) now w := by
  rw [Follows, Dispatcher.runIfCalled, reaches_bind, Host.look, reaches_modifyGet]
  dsimp only
  rw [hfind]
  cases hc : find' w.files w.cwd with
  | none =>
    refine follows_none ha ?_
    rw [underAgent_eq ha, hc]
    rfl
  | some c =>
    have hrun : Follows e (e.watched.runChecked (c.withEnv a.env) none) _ outputs _ now w :=
      follows_underAgent he ha (fun _ files cwd => find' files cwd) hc
    exact follows_forget hrun fun _ _ hran => hran.1

theorem Dispatcher.follows_remoteSteps (d : Dispatcher) (he : e.Answers)
    (ha : agent? simulated outputs = some a) (r : Runner) (c : CommandSpec) (limit : Option Nat) :
    Follows e (d.remoteSteps e.watched r c limit a) (d.stepsUnderAgent simulated r c limit) outputs
      (fun output outputs' => outputs'.getLast? = some output) now w := by
  refine follows_cons (follows_underAgent he ha _ rfl) fun _ _ _ _ hpushed => ?_
  refine follows_cons
    (follows_runIfCalled he hpushed.1 fun _ _ => d.awsPush_eq) fun _ _ _ _ ha => ?_
  refine follows_cons
    (follows_runIfCalled he ha fun _ _ => d.providerPush_eq) fun _ _ _ _ ha => ?_
  refine follows_cons (follows_underAgent he ha _ rfl) fun _ _ _ _ hlisted => ?_
  refine (follows_underAgent he hlisted.1 _ ?_).mono fun _ _ hran => hran.2
  dsimp only
  rw [hlisted.2]
  rfl

/-! ## Dispatching -/

/-- Once an agent has started, its keys are loaded before it is used. -/
theorem follows_used (he : e.Answers) (ha : agent? simulated outputs = some a) (keys : List String)
    {body : Timed (Host (Watched τ)) (RunResult α)}
    (hbody : ∀ outputs now w, agent? simulated outputs = some a →
      Follows e body steps outputs V now w) :
    Follows e ((a.loading e.watched keys).onSuccess fun () => a.holding body)
      (keys.map (loadKey simulated) ++ steps) outputs V now w :=
  follows_onSuccess (follows_loading he ha keys) fun _ outputs now w ha =>
    follows_holding (hbody outputs now w ha)

/-- A use of an agent, up to its kill, does what the plan calls for. The agent that has to be killed
is the one that was started. -/
theorem reaches_session (he : e.Answers) {keys : List String}
    {body : KeyAgent → Timed (Host (Watched τ)) (RunResult α)}
    (hbody : ∀ a outputs now w, agent? e.simulated outputs = some a →
      Follows e (body a) steps outputs V now w) :
    (KeyAgent.session e.watched keys body).Reaches none now w
      (fun used time w' => ∃ log ending,
        e.Performs
          (always (agentStart e.simulated) :: keys.map (loadKey e.simulated) ++ steps) [] now
          w.unwatched log ending time w'.unwatched ∧
        w'.seenCommands = w.seenCommands ++ log.map Performed.spec ∧ Agrees V used.1 ending ∧
        used.2 = startedIn? e.simulated log)
      fun _ _ => False := by
  rw [KeyAgent.session, reaches_bind, Executor.runChecked, reaches_bind]
  refine (reaches_run_watched he KeyAgent.startCommand none).mono ?_ fun _ _ => id
  rintro (err | output) time w' ⟨hrun, hseen⟩
  · exact (reaches_pure _).2 ((reaches_pure _).2 ⟨_, _, .failed rfl hrun rfl, hseen, rfl, rfl⟩)
  refine (reaches_pure _).2 ?_
  -- No agent was started if the start failed, nor if it did not print where its agent is.
  have hagent := startedIn?_cons e.simulated output
  by_cases hsuccess : output.success = true
  · have hcheck : output.check KeyAgent.startCommand = .ok output := if_pos hsuccess
    have houtcome := outcome_agentStart e.simulated hsuccess
    simp only [if_pos hsuccess, KeyAgent.ofOutput?_eq] at hagent
    rw [hcheck, Executor.simulated_watched]
    dsimp only
    cases hparsed : (if e.simulated then Except.ok KeyAgent.standIn
      else KeyAgent.parse output.stdout) with
    | error err =>
      rw [hparsed] at houtcome hagent
      exact (reaches_pure _).2 ⟨_, _, .failed rfl hrun houtcome, hseen, rfl, (hagent []).symm⟩
    | ok a =>
      rw [hparsed] at houtcome hagent
      have ha : agent? e.simulated [output] = some a := by
        rw [agent?, List.head?_cons, Option.bind_some, KeyAgent.ofOutput?_eq, hparsed]
        rfl
      rw [reaches_bind]
      refine Reaches.mono (follows_used he ha keys (hbody a)) ?_ fun _ _ => id
      rintro result later w'' ⟨log, ending, hperforms, hseen', hagrees⟩
      refine (reaches_pure _).2 ⟨_, ending, .succeeded rfl hrun houtcome hperforms, ?_, hagrees,
        (hagent log).symm⟩
      rw [hseen', hseen, List.append_assoc]
      rfl
  · have hcheck : output.check KeyAgent.startCommand = .error
        (.command KeyAgent.startCommand.commandLine output.exitCode
          (KeyAgent.startCommand.redact output.stderr)) := if_neg hsuccess
    have hfails : (agentStart e.simulated).outcome (.ok output) = .error _ :=
      congrArg (· >>= _) hcheck
    rw [hcheck]
    simp only [if_neg hsuccess] at hagent
    exact (reaches_pure _).2 ⟨_, _, .failed rfl hrun hfails, hseen, rfl, (hagent []).symm⟩

/-- The kill is the last command, and changes no result. -/
theorem reaches_conclude (he : e.Answers) (result : RunResult α) (log : List Performed)
    (agent : Option KeyAgent) (hagent : agent = startedIn? simulated log) :
    (KeyAgent.conclude e.watched (result, agent)).Reaches none now w
      (fun answer time w' => answer = result ∧ ∃ killed ending,
        e.Performs (killAfter simulated log) [] now w.unwatched killed ending time w'.unwatched ∧
        w'.seenCommands = w.seenCommands ++ killed.map Performed.spec)
      fun _ _ => False := by
  rw [killAfter, ← hagent]
  cases agent with
  | none => exact (reaches_pure _).2 ⟨rfl, [], _, .done, (List.append_nil _).symm⟩
  | some a =>
    have hkill : Follows e (e.watched.runChecked a.kill none)
        [always { spec := a.kill }] [] _ now w :=
      follows_runChecked he rfl
    rw [KeyAgent.conclude, reaches_bind, KeyAgent.stop, reaches_bind]
    refine Reaches.mono hkill ?_ fun _ _ => id
    rintro _ time w' ⟨killed, ending, hperforms, hseen, -⟩
    exact (reaches_pure _).2 ((reaches_pure _).2 ⟨rfl, killed, ending, hperforms, hseen⟩)

end Following

theorem Agrees.map_getLast? {result : RunResult CommandOutput}
    {ending : RunResult (List CommandOutput)}
    (h : Agrees (fun output outputs => outputs.getLast? = some output) result ending) :
    result.map some = ending.map List.getLast? := by
  rcases result with err | output <;> rcases ending with err' | outputs
  · obtain rfl : err = err' := h
    rfl
  · exact h.elim
  · exact h.elim
  · exact congrArg Except.ok (Eq.symm h)

theorem checkTools_of_isInstalled {files : FileTree} {cwd dirs tools : List String}
    (h : ∀ tool ∈ tools, isInstalled files cwd dirs tool) :
    checkTools files cwd dirs tools = .ok () := by
  have hnone : missingTools files cwd dirs tools = [] := by
    rw [missingTools, List.filter_eq_nil_iff]
    intro tool htool
    simp [h tool htool]
  rw [checkTools, hnone]

/-- **A dispatch to a runner performs its plan up to the first failure, and kills its agent.** Its
result is that failure, or the output of the last command. -/
theorem Dispatcher.performs_plan (d : Dispatcher) {e : Executor τ} (he : e.Answers)
    (c : CommandSpec) (host : Network.Address) (limit : Option Nat) (now : Nat)
    (w : Host (Watched τ))
    (htools : ∀ tool ∈ (Target.remote host).tools, isInstalled w.files w.cwd d.searchDirs tool) :
    ∃ log ending time h killed killing answer time' w',
      e.Performs (d.remotePlan e.simulated c host limit) [] now w.unwatched log ending time h ∧
        e.Performs (PlanStep.killAfter e.simulated log)
          [] time h killed killing time' w'.unwatched ∧
        (d.dispatch e.watched c (.remote host) limit).runUnder none now w =
          ⟨.done answer, time', w'⟩ ∧
        w'.seenCommands = w.seenCommands ++ (log ++ killed).map Performed.spec ∧
        answer.map some = ending.map List.getLast? := by
  have hdispatch : (d.dispatch e.watched c (.remote host) limit).Reaches none now w
      (fun answer time' w' => ∃ log ending time h killed killing,
        e.Performs (d.remotePlan e.simulated c host limit) [] now w.unwatched log ending time h ∧
          e.Performs (PlanStep.killAfter e.simulated log) [] time h killed killing time'
            w'.unwatched ∧
          w'.seenCommands = w.seenCommands ++ (log ++ killed).map Performed.spec ∧
          answer.map some = ending.map List.getLast?)
      fun _ _ => False := by
    rw [Dispatcher.dispatch, Timed.onSuccess, requireTools, Host.look, reaches_bind,
      reaches_modifyGet]
    dsimp only
    rw [checkTools_of_isInstalled htools]
    dsimp only
    rw [KeyAgent.during_eq, reaches_bind]
    refine (reaches_session he fun a outputs now w ha =>
      d.follows_remoteSteps he ha (d.runner host) c limit).mono ?_ fun _ _ => id
    -- The use of the agent is over, and its kill is what remains.
    rintro ⟨result, agent⟩ time w' ⟨log, ending, hperforms, hseen, hagrees, hagent⟩
    refine (reaches_conclude he result log agent hagent).mono ?_ fun _ _ => id
    rintro _ time' w'' ⟨rfl, killed, killing, hkilled, hseen'⟩
    refine ⟨log, ending, time, w'.unwatched, killed, killing, hperforms, hkilled, ?_,
      hagrees.map_getLast?⟩
    rw [hseen', hseen, List.map_append, List.append_assoc]
  obtain ⟨answer, time', w', hrun, log, ending, time, h, killed, killing, hperforms, hkilled, hseen,
    hanswer⟩ := hdispatch.returns
  exact ⟨log, ending, time, h, killed, killing, answer, time', w', hperforms, hkilled, hrun, hseen,
    hanswer⟩

/-! ### A user in two groups -/

theorem Rehearsal.answers_executor (simulated : Bool) (rules : List CommandRule) :
    (executor simulated rules).Answers := by
  intro c limit
  refine finishes_of_reaches fun now h => ?_
  show (runCommand rules c limit).Reaches none now h _ _
  rw [runCommand, reaches_bind, reaches_now, reaches_bind, reaches_modifyGet]
  cases (issue rules c limit now (makeDue (· < now) h)).1 with
  | none => exact (reaches_pure _).2 trivial
  | some r =>
    have hmeets : ∀ time, meets time none = true := fun _ => rfl
    rw [reaches_bind, reaches_waitWhile, hmeets, if_pos rfl]
    split <;>
    · rw [reaches_bind, reaches_now, reaches_bind, reaches_modify]
      cases r.error <;> exact (reaches_pure _).2 trivial

/-- The agent prints where it is, and the runner lists two groups. -/
def twoGroups : List Rehearsal.CommandRule :=
  [{ program := some "ssh-agent"
     output :=
       { stdout := "SSH_AUTH_SOCK=/tmp/a.sock;\nSSH_AGENT_PID=41;\n", exitCode := some 0 } },
   { program := some "ssh", nth := some 1, output := { stdout := "4 27\n", exitCode := some 0 } }]

/-- Only the container is run under the caller's limit; it gets both groups. -/
theorem Dispatcher.performs_plan_twoGroups :
    ∃ log ending time h killed killing answer time' w',
      (Rehearsal.executor false twoGroups).Performs
          (oneKeyDispatcher.remotePlan false (command "./sct.py") ⟨10, 0, 0, 9⟩ (some 60)) [] 0
          sshHost.unwatched log ending time h ∧
        (Rehearsal.executor false twoGroups).Performs (PlanStep.killAfter false log)
        [] time h killed
          killing time' w'.unwatched ∧
        (oneKeyDispatcher.dispatch (Rehearsal.executor false twoGroups).watched (command "./sct.py")
          (.remote ⟨10, 0, 0, 9⟩) (some 60)).runUnder none 0 sshHost = ⟨.done answer, time', w'⟩ ∧
        w'.seenCommands = (log ++ killed).map Performed.spec ∧
        answer.map some = ending.map List.getLast? ∧
        (w'.tools.tools.notes.map fun n => (n.spec.program, n.limit)) =
          [("ssh-agent", none), ("ssh-add", none), ("rsync", none), ("ssh", none), ("ssh", some 60),
            ("ssh-agent", none)] ∧
        w'.seenCommands[4]? = some
          (((oneKeyDispatcher.runner ⟨10, 0, 0, 9⟩).container
            { oneKeyDispatcher.invocation (command "./sct.py") "/home/ubuntu/sct-workspace" with
              groupIds := ["4", "27"] }).withEnv [("SSH_AUTH_SOCK", "/tmp/a.sock"),
                ("SSH_AGENT_PID", "41")]) := by
  obtain ⟨log, ending, time, h, killed, killing, answer, time', w', hperforms, hkilled, hrun, hseen,
    hanswer⟩ := oneKeyDispatcher.performs_plan (Rehearsal.answers_executor false twoGroups)
      (command "./sct.py") ⟨10, 0, 0, 9⟩ (some 60) 0 sshHost (by decide +kernel)
  refine ⟨log, ending, time, h, killed, killing, answer, time', w', hperforms, hkilled, hrun, hseen,
    hanswer, ?_⟩
  have hstate := congrArg Ended.state hrun
  dsimp only at hstate
  rw [← hstate]
  decide +kernel

end Stagehand
