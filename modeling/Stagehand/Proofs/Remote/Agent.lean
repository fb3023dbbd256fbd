import Stagehand.Proofs.Dispatch.Steps
import Stagehand.Rehearsal.Executor

/-!
# A key agent is killed once

A use of a runner starts an agent, loads keys, does its work and kills the agent. It may be
dropped at any instant: then the kill is left behind, unless the agent has not started or
is being killed already.

* `Host.Holds`: an agent runs, and nothing was done to end it. Everything between its start and its
  kill keeps this.
* `Host.Completed` and `Host.GivenUp`: what a use of an agent can come to, by itself
  and by being dropped.
* `Host.Bracketed`: if an agent was started, one command kills it, and that command is the last.
* `KeyAgent.during_eq`: the kill stands apart from what goes before it, so its answer cannot matter.
* `KeyAgent.reaches_session_of` and `Dispatcher.preserves_remoteSteps`: what every command of a use
  keeps, the use keeps.

Main result: `Dispatcher.agent_killed_once`.
-/

namespace Stagehand

open Timed

variable {τ α : Type} {e e' : Executor τ}

/-! ## What is seen of agents -/

namespace KeyAgent

/-- A command carries the variables of this agent. -/
structure Leads (a : KeyAgent) (c : CommandSpec) : Prop where
  socket : c.env.get? "SSH_AUTH_SOCK" = some a.socket
  pid : c.env.get? "SSH_AGENT_PID" = some a.pid

theorem leads_withEnv (a : KeyAgent) (c : CommandSpec) : a.Leads (c.withEnv a.env) where
  socket := by
    rw [CommandSpec.env_withEnv, NameMap.get?_insertAll]
    rfl
  pid := by
    rw [CommandSpec.env_withEnv, NameMap.get?_insertAll]
    rfl

/-- A command that kills the agent that its variables lead to. -/
def IsKill (c : CommandSpec) : Prop := c.program = "ssh-agent" ∧ c.args = ["-k"]

/-- A command kills this agent. -/
structure IsKilledBy (a : KeyAgent) (c : CommandSpec) : Prop where
  isKill : IsKill c
  socket : c.env.get? "SSH_AUTH_SOCK" = some a.socket
  pid : c.env.get? "SSH_AGENT_PID" = some a.pid

theorem isKilledBy_kill (a : KeyAgent) : a.IsKilledBy a.kill where
  isKill := List.cons.inj (CommandSpec.argv_withEnv ((command "ssh-agent").arg "-k") a.env)
  socket := (a.leads_withEnv _).socket
  pid := (a.leads_withEnv _).pid

theorem not_isKill {c : CommandSpec} (h : c.program ≠ "ssh-agent") : ¬ IsKill c := fun hc => h hc.1

theorem not_isKill_withEnv {c : CommandSpec} (h : c.program ≠ "ssh-agent")
    (vars : List (String × String)) : ¬ IsKill (c.withEnv vars) :=
  not_isKill (by rwa [CommandSpec.program_withEnv])

theorem not_isKill_startCommand : ¬ IsKill startCommand := fun h => absurd h.2 (by decide)

theorem not_isKill_addKey (a : KeyAgent) (key : String) : ¬ IsKill (a.addKey key) :=
  not_isKill_withEnv (fun h : "ssh-add" = "ssh-agent" => absurd h (by decide)) _

/-- The agent that a successful start leads to, if what it printed can be used. -/
def ofOutput? (simulated : Bool) (output : CommandOutput) : Option KeyAgent :=
  if simulated then some standIn else (parse output.stdout).toOption

def startedBy? (simulated : Bool) : Sighting → Option KeyAgent
  | .answered c (.ok output) =>
    if c = startCommand ∧ output.success = true then ofOutput? simulated output else none
  | _ => none

theorem startedBy?_startCommand (simulated : Bool) (output : CommandOutput) :
    startedBy? simulated (.answered startCommand (.ok output)) =
      (output.check startCommand).toOption.bind (ofOutput? simulated) := by
  rw [startedBy?, CommandOutput.check]
  by_cases hsuccess : output.success = true
  · rw [if_pos ⟨rfl, hsuccess⟩, if_pos hsuccess]
    rfl
  · rw [if_neg fun h => hsuccess h.2, if_neg hsuccess]
    rfl

end KeyAgent

open KeyAgent

namespace Runner

theorem not_isKill_push (r : Runner) (here there : String) (a : KeyAgent) :
    ¬ IsKill ((r.push here there).withEnv a.env) :=
  not_isKill_withEnv (fun h : "rsync" = "ssh-agent" => absurd h (by decide)) _

theorem not_isKill_pull (r : Runner) (there here : String) (a : KeyAgent) :
    ¬ IsKill ((r.pull there here).withEnv a.env) :=
  not_isKill_withEnv (fun h : "rsync" = "ssh-agent" => absurd h (by decide)) _

theorem not_isKill_ssh (r : Runner) (line : String) (a : KeyAgent) :
    ¬ IsKill ((r.ssh line).withEnv a.env) :=
  not_isKill_withEnv (fun h : "ssh" = "ssh-agent" => absurd h (by decide)) _

theorem not_isKill_container (r : Runner) (i : ContainerInvocation) (a : KeyAgent) :
    ¬ IsKill ((r.container i).withEnv a.env) := by
  have hprogram : (r.container i).program = "ssh" :=
    (List.cons.inj (CommandSpec.argv_foldl_secret _ _ _)).1
  exact not_isKill_withEnv (by rw [hprogram]; decide) _

end Runner

namespace Host

/-- The agent that was seen to start. -/
def startedAgent? (simulated : Bool) (w : Host (Watched τ)) : Option KeyAgent :=
  w.tools.seen.findSome? (startedBy? simulated)

/-- The commands that were issued, with those that were left behind to be issued. -/
def issued (w : Host (Watched τ)) : List CommandSpec := w.seenCommands ++ w.leftBehind

/-- If an agent was started, one command kills it, after all others. Without an agent
none is killed. -/
def Bracketed (simulated : Bool) (w : Host (Watched τ)) : Prop :=
  match w.startedAgent? simulated with
  | some a => ∃ before kill, w.issued = before ++ [kill] ∧ a.IsKilledBy kill ∧
      ∀ c ∈ before, ¬ IsKill c
  | none => ∀ c ∈ w.issued, ¬ IsKill c

/-- This agent was started, if any, and no command was issued or left behind to kill one. -/
structure Holds (simulated : Bool) (agent : Option KeyAgent) (w : Host (Watched τ)) : Prop where
  started : w.startedAgent? simulated = agent
  unkilled : ∀ c ∈ w.seenCommands, ¬ IsKill c
  left : w.leftBehind = []

theorem startedAgent?_see (simulated : Bool) (sighting : Sighting) (w : Host (Watched τ)) :
    (w.see sighting).startedAgent? simulated =
      (w.startedAgent? simulated).or (startedBy? simulated sighting) := by
  rw [startedAgent?, see, List.findSome?_append]
  simp [startedAgent?]

namespace Holds

variable {simulated : Bool} {agent : Option KeyAgent} {w : Host (Watched τ)}

theorem bracketed (h : Holds simulated none w) : Bracketed simulated w := by
  rw [Bracketed, h.started]
  intro c hc
  rw [issued, h.left, List.append_nil] at hc
  exact h.unkilled c hc

/-- What is seen after an agent has started does not make it another one. -/
theorem started_append {a : KeyAgent} (h : Holds simulated (some a) w) {w' : Host (Watched τ)}
    {later : List Sighting} (hseen : w'.tools.seen = w.tools.seen ++ later) :
    w'.startedAgent? simulated = some a := by
  have hstarted := h.started
  rw [startedAgent?] at hstarted
  rw [startedAgent?, hseen, List.findSome?_append, hstarted, Option.some_or]

/-- One kill behind all other commands is enough. -/
theorem bracketed_of_kill {a : KeyAgent} (h : Holds simulated (some a) w) {w' : Host (Watched τ)}
    (hstarted : w'.startedAgent? simulated = some a)
    (hissued : w'.issued = w.seenCommands ++ [a.kill]) :
    Bracketed simulated w' := by
  rw [Bracketed, hstarted]
  exact ⟨w.seenCommands, a.kill, hissued, a.isKilledBy_kill, h.unkilled⟩

theorem issue (h : Holds simulated agent w) {c : CommandSpec} (hc : ¬ IsKill c) {inner : Host τ}
    (hleft : inner.leftBehind = []) :
    Holds simulated agent (inner.watchedBy (w.see (.issued c))) where
  started := (startedAgent?_see simulated (.issued c) w).trans (Option.or_none.trans h.started)
  unkilled := by
    intro d hd
    have hseen : d ∈ (w.see (.issued c)).seenCommands := hd
    rw [seenCommands_see_issued, List.mem_append, List.mem_singleton] at hseen
    rcases hseen with hd | rfl
    · exact h.unkilled d hd
    · exact hc
  left := hleft

/-- The first answer that starts an agent counts. -/
theorem answer (h : Holds simulated agent w) (c : CommandSpec) (answer : RunResult CommandOutput) :
    Holds simulated (agent.or (startedBy? simulated (.answered c answer)))
      (w.see (.answered c answer))
    where
  started := by rw [startedAgent?_see, h.started]
  unkilled := by
    rw [seenCommands_see_answered]
    exact h.unkilled
  left := h.left

end Holds

/-! ### Ends of a use -/

/-- The use of an agent came to its own end: none was started, or its kill was answered. -/
inductive Completed (simulated : Bool) (w : Host (Watched τ)) : Prop where
  | unstarted (h : Holds simulated none w)
  | killed {a : KeyAgent} {before : Host (Watched τ)} {answer : RunResult CommandOutput}
      (h : Holds simulated (some a) before)
      (hseen : w.tools.seen = before.tools.seen ++ [.issued a.kill, .answered a.kill answer])
      (hleft : w.leftBehind = [])

/-- The use of an agent was given up: before one was started, or while it ran, so that its kill was
left behind, or while it was being killed. -/
inductive GivenUp (simulated : Bool) (w : Host (Watched τ)) : Prop where
  | unstarted (h : Holds simulated none w)
  | left {a : KeyAgent} {before : Host (Watched τ)} (h : Holds simulated (some a) before)
      (heq : w = before.leave a.kill)
  | killing {a : KeyAgent} {before : Host (Watched τ)} (h : Holds simulated (some a) before)
      (hseen : w.tools.seen = before.tools.seen ++ [.issued a.kill]) (hleft : w.leftBehind = [])

variable {simulated : Bool} {w : Host (Watched τ)}

theorem issued_eq {before : Host (Watched τ)} {later : List Sighting}
    (hseen : w.tools.seen = before.tools.seen ++ later) (hleft : w.leftBehind = []) :
    w.issued = before.seenCommands ++ later.filterMap Sighting.issued? := by
  rw [issued, seenCommands, hseen, hleft, List.append_nil, List.filterMap_append]
  rfl

theorem Completed.bracketed (h : Completed simulated w) : Bracketed simulated w := by
  cases h with
  | unstarted h => exact h.bracketed
  | killed h hseen hleft =>
    exact h.bracketed_of_kill (h.started_append hseen) (issued_eq hseen hleft)

theorem GivenUp.bracketed (h : GivenUp simulated w) : Bracketed simulated w := by
  cases h with
  | unstarted h => exact h.bracketed
  | left h heq =>
    subst heq
    refine h.bracketed_of_kill h.started ?_
    rw [issued, leave, h.left, List.nil_append]
    rfl
  | killing h hseen hleft =>
    exact h.bracketed_of_kill (h.started_append hseen) (issued_eq hseen hleft)

end Host

open Host

/-! ## Commands -/

/-- Every command comes to an end or is cut, and leaves nothing behind on its own account. -/
def Executor.Orderly (e : Executor τ) : Prop :=
  ∀ c limit deadline now h, h.leftBehind = [] → (e.run c limit).Reaches deadline now h
    (fun _ _ h => h.leftBehind = []) fun _ h => h.leftBehind = []

section Watching

variable {simulated : Bool} {deadline limit : Option Nat} {now : Nat} {w : Host (Watched τ)}
  {agent : Option KeyAgent}

theorem reaches_run (he : e.Orderly) {c : CommandSpec} (hc : ¬ IsKill c)
    (hw : Holds simulated agent w) :
    (e.watched.run c limit).Reaches deadline now w
      (fun answer _ w => Holds simulated (agent.or (startedBy? simulated (.answered c answer))) w)
      fun _ w => Holds simulated agent w := by
  rw [Executor.reaches_watched]
  refine (he c limit deadline now w.unwatched hw.left).mono (fun answer _ h hleft => ?_)
    fun _ h hleft => hw.issue hc hleft
  exact (hw.issue hc hleft).answer c answer

/-- While an agent runs, commands that kill none leave it running. -/
theorem reaches_runChecked (he : e.Orderly) {c : CommandSpec} (hc : ¬ IsKill c) {a : KeyAgent}
    (hw : Holds simulated (some a) w) :
    (e.watched.runChecked c limit).Reaches deadline now w (fun _ _ w => Holds simulated (some a) w)
      fun _ w => Holds simulated (some a) w := by
  rw [Executor.runChecked, reaches_bind]
  refine (reaches_run he hc hw).mono (fun answer _ w hw => ?_) fun _ _ hw => hw
  cases answer <;> exact (reaches_pure _).2 hw

/-- The agent that starts is read off the output. -/
theorem reaches_startCommand (he : e.Orderly) (hw : Holds simulated none w) :
    (e.watched.runChecked startCommand limit).Reaches deadline now w
      (fun result _ w => Holds simulated (result.toOption.bind (ofOutput? simulated)) w)
      fun _ w => Holds simulated none w := by
  rw [Executor.runChecked, reaches_bind]
  refine (reaches_run he not_isKill_startCommand hw).mono (fun answer _ w hw => ?_)
    fun _ _ hw => hw
  cases answer with
  | error e => exact (reaches_pure _).2 hw
  | ok output =>
    rw [Option.none_or, startedBy?_startCommand] at hw
    exact (reaches_pure _).2 hw

theorem reaches_holding {a : KeyAgent} {body : Timed (Host (Watched τ)) α}
    {Q : α → Nat → Host (Watched τ) → Prop}
    (h : body.Reaches deadline now w Q fun _ w => Holds simulated (some a) w) :
    (a.holding body).Reaches deadline now w Q fun _ w => GivenUp simulated w := by
  rw [KeyAgent.holding, reaches_whenAbandoned]
  exact h.mono (fun _ _ _ hq => hq) fun _ _ hw => .left hw rfl

/-- The kill ends the use, whatever it is answered; if it is dropped, nothing is left behind. -/
theorem reaches_stop (he : e.Orderly) {a : KeyAgent} (hw : Holds simulated (some a) w) :
    (a.stop e.watched).Reaches deadline now w (fun _ _ w => Completed simulated w)
      fun _ w => GivenUp simulated w := by
  rw [KeyAgent.stop, reaches_bind, Executor.runChecked, reaches_bind, Executor.reaches_watched]
  refine (he a.kill none deadline now w.unwatched hw.left).mono (fun answer _ h hleft => ?_)
    fun _ h hleft => .killing hw rfl hleft
  have hseen : ((h.watchedBy (w.see (.issued a.kill))).see (.answered a.kill answer)).tools.seen =
      w.tools.seen ++ [.issued a.kill, .answered a.kill answer] :=
    List.append_assoc w.tools.seen _ _
  cases answer <;> exact (reaches_pure _).2 ((reaches_pure _).2 (.killed hw hseen hleft))

end Watching

/-! ## The kill stands apart -/

theorem Timed.bind_assoc {σ β γ : Type} (x : Timed σ α) (f : α → Timed σ β) (g : β → Timed σ γ) :
    x >>= f >>= g = x >>= fun a => f a >>= g := by
  induction x with
  | done a => rfl
  | broken => rfl
  | look next ih => exact congrArg look (funext fun now => funext fun s => ih now s)
  | put s next ih => exact congrArg (put s) ih
  | pause w next ih => exact congrArg (pause w) ih

namespace KeyAgent

variable {keys : List String} {body body' : KeyAgent → Timed (Host τ) (RunResult α)}

/-- Loads keys; what has to be done if one does not load is left to the caller. -/
def loading (e : Executor τ) (a : KeyAgent) : List String → Timed (Host τ) (RunResult Unit)
  | [] => pure (.ok ())
  | key :: rest =>
    (a.holding (e.runChecked (a.addKey key) none)).onSuccess fun _ => a.loading e rest

/-- The use of an agent up to its kill. Answers what the use came to, and the agent to be killed. -/
def session (e : Executor τ) (keys : List String) (body : KeyAgent → Timed (Host τ) (RunResult α)) :
    Timed (Host τ) (RunResult α × Option KeyAgent) := do
  match ← e.runChecked startCommand none with
  | .error err => pure (.error err, none)
  | .ok output =>
    match if e.simulated then .ok standIn else parse output.stdout with
    | .error err => pure (.error err, none)
    | .ok a => do
      let result ← (a.loading e keys).onSuccess fun () => a.holding (body a)
      pure (result, some a)

/-- Kills the agent that is left of a session. -/
def conclude (e : Executor τ) : RunResult α × Option KeyAgent → Timed (Host τ) (RunResult α)
  | (result, some a) => do
    a.stop e
    pure result
  | (result, none) => pure result

/-- The agent, if its keys are loaded; if not, it is killed. -/
def ifLoaded (e : Executor τ) (a : KeyAgent) : RunResult Unit → Timed (Host τ) (RunResult KeyAgent)
  | .ok () => pure (.ok a)
  | .error err => do
    a.stop e
    pure (.error err)

theorem loadKeys_eq (e : Executor τ) (a : KeyAgent) (keys : List String) :
    a.loadKeys e keys = a.loading e keys >>= a.ifLoaded e := by
  induction keys with
  | nil => rfl
  | cons key rest ih =>
    rw [loadKeys, loading, Timed.onSuccess, bind_assoc]
    congr 1
    funext added
    cases added with
    | ok => exact ih
    | error => rfl

/-- **The kill stands apart from all that is done before it.** -/
theorem during_eq (e : Executor τ) (keys : List String)
    (body : KeyAgent → Timed (Host τ) (RunResult α)) :
    during e keys body = session e keys body >>= conclude e := by
  rw [during, start, Timed.onSuccess, Timed.onSuccess, session, bind_assoc, bind_assoc]
  congr 1
  funext started
  cases started with
  | error err => rfl
  | ok output =>
    dsimp only
    cases (if e.simulated then Except.ok standIn else parse output.stdout) with
    | error err => rfl
    | ok a =>
      dsimp only
      rw [loadKeys_eq, Timed.onSuccess, bind_assoc, bind_assoc, bind_assoc]
      congr 1
      funext loaded
      cases loaded with
      | error err => exact bind_assoc _ _ _
      | ok => rfl

/-! ## Rules for the use of an agent -/

section Rules

variable {deadline : Option Nat} {now : Nat} {w : Host τ} {C : Nat → Host τ → Prop}

/-- Loading keys keeps what loading one key keeps. -/
theorem reaches_loading {a : KeyAgent} {I : Host τ → Prop}
    (hload : ∀ key now w, I w →
      (a.holding (e.runChecked (a.addKey key) none)).Reaches deadline now w (fun _ _ w => I w) C)
    (hw : I w) : (a.loading e keys).Reaches deadline now w (fun _ _ w => I w) C := by
  induction keys generalizing now w with
  | nil => exact (reaches_pure _).2 hw
  | cons key rest ih =>
    rw [loading, Timed.onSuccess, reaches_bind]
    refine (hload key now w hw).mono (fun added _ w hw => ?_) fun _ _ hc => hc
    cases added with
    | ok => exact ih hw
    | error => exact (reaches_pure _).2 hw

/-- What starts, keys and work do about an agent is what a session does about it. -/
theorem reaches_session_of {I : Option KeyAgent → Host τ → Prop}
    (hstart : (e.runChecked startCommand none).Reaches deadline now w
      (fun result _ w => I (result.toOption.bind (ofOutput? e.simulated)) w) C)
    (hload : ∀ a key now w, I (some a) w →
      (a.holding (e.runChecked (a.addKey key) none)).Reaches deadline now w
      (fun _ _ w => I (some a) w) C)
    (hbody : ∀ a now w, I (some a) w →
      (a.holding (body a)).Reaches deadline now w (fun _ _ w => I (some a) w) C) :
    (session e keys body).Reaches deadline now w (fun r _ w => I r.2 w) C := by
  rw [session, reaches_bind]
  refine hstart.mono (fun started time w hw => ?_) fun _ _ hc => hc
  cases started with
  | error err => exact (reaches_pure _).2 hw
  | ok output =>
    dsimp only
    -- The invariant speaks of the agent that is read off the output, if one can be.
    have hagent : (if e.simulated then Except.ok standIn else parse output.stdout).toOption =
        ofOutput? e.simulated output := by
      rw [ofOutput?]
      split <;> rfl
    replace hw : I (ofOutput? e.simulated output) w := hw
    rw [← hagent] at hw
    cases hparsed : (if e.simulated then Except.ok standIn else parse output.stdout) with
    | error err =>
      rw [hparsed] at hw
      exact (reaches_pure _).2 hw
    | ok a =>
      rw [hparsed] at hw
      dsimp only
      rw [reaches_bind, Timed.onSuccess, reaches_bind]
      refine (reaches_loading (hload a) hw).mono (fun loaded time w hw => ?_) fun _ _ hc => hc
      cases loaded with
      | error err => exact (reaches_pure _).2 ((reaches_pure _).2 hw)
      | ok =>
        exact (hbody a time w hw).mono (fun _ _ _ hw => (reaches_pure _).2 hw) fun _ _ hc => hc

end Rules

/-! ## The bracket -/

section Watching

variable {simulated : Bool} {deadline : Option Nat} {now : Nat} {w : Host (Watched τ)}

/-- Work under an agent that kills none. -/
def Spares (e : Executor τ) (a : KeyAgent) (x : Timed (Host (Watched τ)) (RunResult α)) : Prop :=
  ∀ deadline now w, Holds e.simulated (some a) w →
    x.Reaches deadline now w (fun _ _ w => Holds e.simulated (some a) w)
      fun _ w => Holds e.simulated (some a) w

theorem reaches_session (he : e.Orderly)
    {body : KeyAgent → Timed (Host (Watched τ)) (RunResult α)} (hbody : ∀ a, Spares e a (body a))
    (hw : Holds e.simulated none w) :
    (session e.watched keys body).Reaches deadline now w
      (fun r _ w => Holds e.simulated r.2 w) fun _ w => GivenUp e.simulated w := by
  refine reaches_session_of ?_ (fun a key _ _ hw => ?_) fun a _ _ hw => ?_
  · exact (reaches_startCommand he hw).mono (fun _ _ _ hw => hw) fun _ _ hw => .unstarted hw
  · exact reaches_holding (reaches_runChecked he (not_isKill_addKey a key) hw)
  · exact reaches_holding (hbody a _ _ _ hw)

/-- Whatever comes of the work, the agent is killed; wherever it is dropped, it is given up. -/
theorem reaches_during (he : e.Orderly)
    {body : KeyAgent → Timed (Host (Watched τ)) (RunResult α)} (hbody : ∀ a, Spares e a (body a))
    (hw : Holds e.simulated none w) :
    (during e.watched keys body).Reaches deadline now w
      (fun _ _ w => Completed e.simulated w) fun _ w => GivenUp e.simulated w := by
  rw [during_eq, reaches_bind]
  refine (reaches_session he hbody hw).mono (fun r time w hw => ?_) fun _ _ hw => hw
  obtain ⟨result, agent⟩ := r
  cases agent with
  | none => exact (reaches_pure _).2 (.unstarted hw)
  | some a =>
    rw [conclude, reaches_bind]
    exact (reaches_stop he hw).mono (fun _ _ _ hw => (reaches_pure _).2 hw) fun _ _ hw => hw

/-! ## Work under an agent -/

variable {a : KeyAgent}

theorem spares_runChecked (he : e.Orderly) {c : CommandSpec} (hc : ¬ IsKill c)
    (limit : Option Nat) :
    Spares e a (e.watched.runChecked c limit) := fun _ _ _ hw => reaches_runChecked he hc hw

end Watching

end KeyAgent

theorem Timed.preserves_onSuccess {σ β : Type} {I : σ → Prop} {x : Timed σ (RunResult β)}
    {f : β → Timed σ (RunResult α)} (hx : x.Preserves I) (hf : ∀ b, (f b).Preserves I) :
    (x.onSuccess f).Preserves I := by
  refine preserves_bind hx fun r => ?_
  cases r with
  | ok b => exact hf b
  | error err => exact preserves_pure _

namespace Dispatcher

section Keeping

variable {I : Host τ → Prop} {a : KeyAgent}

theorem preserves_runIfCalled {find : FileTree → List String → Option CommandSpec}
    (hfind : ∀ files cwd, ∀ c ∈ find files cwd, (e.runChecked (c.withEnv a.env) none).Preserves I) :
    (runIfCalled e a find).Preserves I := by
  intro deadline now w hw
  rw [runIfCalled, reaches_bind, Host.look, reaches_modifyGet]
  dsimp only
  cases hc : find w.files w.cwd with
  | none => exact (reaches_pure _).2 hw
  | some c =>
    exact preserves_onSuccess (hfind _ _ c hc) (fun _ => preserves_pure _) deadline now w hw

/-- The steps on a runner keep what copies, questions and containers keep, each under the agent. -/
theorem preserves_remoteSteps (d : Dispatcher) (r : Runner) (c : CommandSpec) (limit : Option Nat)
    (hpush : ∀ here there, (e.runChecked ((r.push here there).withEnv a.env) none).Preserves I)
    (hssh : ∀ line, (e.runChecked ((r.ssh line).withEnv a.env) none).Preserves I)
    (hcontainer : ∀ i, (e.runChecked ((r.container i).withEnv a.env) limit).Preserves I) :
    (d.remoteSteps e r c limit a).Preserves I := by
  refine preserves_onSuccess (hpush _ _) fun _ => ?_
  refine preserves_onSuccess (preserves_runIfCalled fun files cwd c hc => ?_) fun _ => ?_
  · obtain ⟨here, there, rfl⟩ := exists_push_of_awsPush hc
    exact hpush here there
  refine preserves_onSuccess (preserves_runIfCalled fun files cwd c hc => ?_) fun _ => ?_
  · obtain ⟨here, there, rfl⟩ := exists_push_of_providerPush hc
    exact hpush here there
  exact preserves_onSuccess (hssh _) fun _ => hcontainer _

end Keeping

theorem spares_remoteSteps (d : Dispatcher) {a : KeyAgent} (he : e.Orderly) (r : Runner)
    (c : CommandSpec) (limit : Option Nat) : Spares e a (d.remoteSteps e.watched r c limit a) :=
  d.preserves_remoteSteps r c limit (fun _ _ => spares_runChecked he (r.not_isKill_push _ _ a) none)
    (fun _ => spares_runChecked he (r.not_isKill_ssh _ a) none)
    fun _ => spares_runChecked he (r.not_isKill_container _ a) limit

end Dispatcher

/-! ## The answer of the kill -/

namespace Timed

/-- Where both end by themselves, they give one answer. -/
def SameAnswer {σ : Type} (x y : Timed σ α) : Prop :=
  ∀ drop drop' now s a b, (x.runUnder drop now s).ending = .done a →
    (y.runUnder drop' now s).ending = .done b → a = b

theorem sameAnswer_pure {σ : Type} (a : α) : SameAnswer (pure a : Timed σ α) (pure a) :=
  fun _ _ _ _ _ _ ha hb => Ending.done.inj (ha.symm.trans hb)

theorem sameAnswer_bind {σ β : Type} (z : Timed σ β) {f g : β → Timed σ α}
    (h : ∀ b, SameAnswer (f b) (g b)) : SameAnswer (z >>= f) (z >>= g) := by
  have hfirst : ∀ {f : β → Timed σ α} {drop : Option Nat} {now : Nat} {s : σ} {a : α},
      ((z >>= f).runUnder drop now s).ending = .done a →
      ∃ b time t, z.runUnder none now s = ⟨.done b, time, t⟩ ∧
        ((f b).runUnder drop time t).ending = .done a := by
    intro f drop now s a ha
    replace ha : ((z.andThen f).runUnder drop now s).ending = .done a := ha
    rw [runUnder_andThen] at ha
    rcases hz : z.runUnder drop now s with ⟨b | _ | _, time, t⟩
    · rw [hz] at ha
      have hnone := runUnder_none_of_done (congrArg Ended.ending hz)
      exact ⟨b, time, t, hnone.trans hz, ha⟩
    · rw [hz] at ha
      cases ha
    · rw [hz] at ha
      cases ha
  -- Both runs come out of `z` with one answer and in one state, however late they are dropped.
  intro drop drop' now s a b ha hb
  obtain ⟨r, time, t, hz, ha⟩ := hfirst ha
  obtain ⟨r', time', t', hz', hb⟩ := hfirst hb
  obtain ⟨⟨rfl⟩, rfl, rfl⟩ : Ending.done r = .done r' ∧ time = time' ∧ t = t' := by
    have hsame := hz.symm.trans hz'
    injection hsame with hr htime ht
    exact ⟨hr, htime, ht⟩
  exact h r drop drop' time t a b ha hb

end Timed

/-- Two executors that differ at most in what they make of some commands. -/
structure Executor.AgreesBut (e e' : Executor τ) (P : CommandSpec → Prop) : Prop where
  simulated : e.simulated = e'.simulated
  run : ∀ {c}, ¬ P c → ∀ limit, e.run c limit = e'.run c limit

namespace KeyAgent

variable {keys : List String} {body body' : KeyAgent → Timed (Host τ) (RunResult α)}
  (h : e.AgreesBut e' IsKill)
include h

theorem runChecked_eq {c : CommandSpec} (hc : ¬ IsKill c) (limit : Option Nat) :
    e.runChecked c limit = e'.runChecked c limit := by
  rw [Executor.runChecked, h.run hc, Executor.runChecked]

theorem loading_eq (a : KeyAgent) : a.loading e keys = a.loading e' keys := by
  induction keys with
  | nil => rfl
  | cons key rest ih => rw [loading, loading, runChecked_eq h (not_isKill_addKey a key), ih]

theorem session_eq (hbody : ∀ a, body a = body' a) :
    session e keys body = session e' keys body' := by
  obtain rfl : body = body' := funext hbody
  rw [session, session, runChecked_eq h not_isKill_startCommand, h.simulated]
  simp only [loading_eq h]

theorem sameAnswer_during (hbody : ∀ a, body a = body' a) :
    SameAnswer (during e keys body) (during e' keys body') := by
  have hconclude : ∀ {e : Executor τ} {r : RunResult α × Option KeyAgent} {drop : Option Nat}
      {now : Nat} {s : Host τ} {a : RunResult α},
      ((conclude e r).runUnder drop now s).ending = .done a → a = r.1 := by
    rintro e ⟨result, _ | agent⟩ drop now s a ha
    · exact (Ending.done.inj ha).symm
    · replace ha : (((agent.stop e).andThen fun _ => pure result).runUnder drop now s).ending =
        .done a := ha
      rw [runUnder_andThen] at ha
      revert ha
      rcases (agent.stop e).runUnder drop now s with ⟨b | _ | _, time, t⟩
      · exact fun ha => (Ending.done.inj ha).symm
      · rintro ⟨⟩
      · rintro ⟨⟩
  rw [during_eq, during_eq, session_eq h hbody]
  refine sameAnswer_bind _ fun r drop drop' now s a b ha hb => ?_
  rw [hconclude ha, hconclude hb]

end KeyAgent

namespace Dispatcher

variable (d : Dispatcher) {a : KeyAgent} (h : e.AgreesBut e' IsKill)
include h

theorem runIfCalled_eq {find : FileTree → List String → Option CommandSpec}
    (hfind : ∀ files cwd, ∀ c ∈ find files cwd, ∃ (r : Runner) (here there : String),
      c = r.push here there) :
    runIfCalled e a find = runIfCalled e' a find := by
  have hlook : ∀ {f g : Option CommandSpec → Timed (Host τ) (RunResult Unit)},
      (∀ files cwd, f (find files cwd) = g (find files cwd)) →
      Host.look find >>= f = Host.look find >>= g := fun h =>
    congrArg Timed.look (funext fun _ => funext fun w => congrArg (put w) (h w.files w.cwd))
  rw [runIfCalled, runIfCalled]
  refine hlook fun files cwd => ?_
  cases hc : find files cwd with
  | none => rfl
  | some c =>
    obtain ⟨r, here, there, rfl⟩ := hfind _ _ c hc
    dsimp only
    rw [runChecked_eq h (r.not_isKill_push here there a)]

theorem remoteSteps_eq (r : Runner) (c : CommandSpec) (limit : Option Nat) (a : KeyAgent) :
    d.remoteSteps e r c limit a = d.remoteSteps e' r c limit a := by
  have haws : runIfCalled e a (d.awsPush r) = runIfCalled e' a (d.awsPush r) :=
    runIfCalled_eq h fun _ _ c hc => ⟨r, exists_push_of_awsPush hc⟩
  have hprovider : runIfCalled e a (d.providerPush r) = runIfCalled e' a (d.providerPush r) :=
    runIfCalled_eq h fun _ _ c hc => ⟨r, exists_push_of_providerPush hc⟩
  simp only [remoteSteps, runChecked_eq h (r.not_isKill_push _ _ a), haws, hprovider,
    runChecked_eq h (r.not_isKill_ssh _ a), runChecked_eq h (r.not_isKill_container _ a)]

end Dispatcher

/-! ## Rehearsals -/

namespace Rehearsal

variable {rules : List CommandRule}

theorem leftBehind_makeNow (p : Planting) (h : Host CommandLog) :
    (makeNow p h).leftBehind = h.leftBehind := by
  rw [makeNow]

theorem leftBehind_makeDue (isDue : Nat → Bool) (h : Host CommandLog) :
    (makeDue isDue h).leftBehind = h.leftBehind := by
  have hfold : ∀ (due : List (Nat × Planting)) (h : Host CommandLog),
      (due.foldl (fun h d => makeNow d.2 h) h).leftBehind = h.leftBehind := by
    intro due
    induction due with
    | nil => exact fun _ => rfl
    | cons d due ih =>
      intro h
      rw [List.foldl_cons, ih, leftBehind_makeNow]
  exact hfold _ _

theorem leftBehind_issueLeft (now : Nat) (h : Host CommandLog) :
    (issueLeft rules now h).leftBehind = [] := by
  refine List.foldlRecOn (motive := fun h : Host CommandLog => h.leftBehind = []) _ _ rfl ?_
  intro h hleft c _
  have hissue : (issue rules c none now h).2.leftBehind = [] := hleft
  generalize issue rules c none now h = issued at hissue ⊢
  obtain ⟨rule, h'⟩ := issued
  cases rule with
  | none => exact hissue
  | some r => cases hmakes : r.makes <;> simpa only [hmakes] using hissue

/-- An executor that follows a script is orderly, whatever the script. -/
theorem orderly_executor (simulated : Bool) (rules : List CommandRule) :
    (executor simulated rules).Orderly := by
  intro c limit deadline now h hleft
  show (runCommand rules c limit).Reaches deadline now h _ _
  have hissued : ∀ now (h : Host CommandLog), h.leftBehind = [] →
      (issue rules c limit now (makeDue (· < now) h)).2.leftBehind = [] := fun now h hleft =>
    (leftBehind_makeDue (· < now) h).trans hleft
  have hmeanwhile : ∀ now (h : Host CommandLog), (meanwhile rules now h).leftBehind = [] :=
    fun now h => (leftBehind_makeDue (· ≤ now) _).trans (leftBehind_issueLeft now h)
  rw [runCommand, reaches_bind, reaches_now, reaches_bind, reaches_modifyGet]
  replace hissued := hissued now h hleft
  revert hissued
  rcases issue rules c limit now (makeDue (· < now) h) with ⟨rule, h'⟩
  intro hissued
  cases rule with
  | none => exact (reaches_pure _).2 hissued
  | some r =>
    rw [reaches_bind]
    -- While it takes its time, all that was left behind is issued.
    refine reaches_waitWhile_of_keeps hissued (fun _ _ _ => hmeanwhile _ _) (fun time h hleft => ?_)
      fun _ _ hleft => hleft
    rw [reaches_bind, reaches_now, reaches_bind, reaches_modify]
    have hdue := (leftBehind_makeDue (· < time) h).trans hleft
    cases r.makes with
    | none => cases r.error <;> exact (reaches_pure _).2 hdue
    | some p =>
      have hmade := (leftBehind_makeNow p _).trans hdue
      cases r.error <;> exact (reaches_pure _).2 hmade

end Rehearsal

/-! ## Dispatching -/

/-- Tools are looked for at once, and nothing is done without them. -/
theorem reaches_requireTools_onSuccess {dirs tools : List String} {x : Timed (Host τ) (RunResult α)}
    {drop : Option Nat} {now : Nat} {h : Host τ} {Q : RunResult α → Nat → Host τ → Prop}
    {C : Nat → Host τ → Prop} (hx : x.Reaches drop now h Q C)
    (hmissing : ∀ err, Q (.error err) now h) :
    ((requireTools dirs tools).onSuccess fun () => x).Reaches drop now h Q C := by
  rw [Timed.onSuccess, requireTools, Host.look, reaches_bind, reaches_modifyGet]
  dsimp only
  split
  · exact hx
  · exact (reaches_pure _).2 (hmissing _)

namespace Dispatcher

variable (d : Dispatcher) (he : e.Orderly) {w : Host (Watched τ)} {drop : Option Nat} {now : Nat}
include he

theorem reaches_requireTools (tools : List String)
    {body : KeyAgent → Timed (Host (Watched τ)) (RunResult α)} (hbody : ∀ a, Spares e a (body a))
    (hseen : w.tools.seen = []) (hleft : w.leftBehind = []) :
    ((requireTools d.searchDirs tools).onSuccess fun () =>
      during e.watched d.settings.sshKeys body).Reaches drop now w
      (fun _ _ w => Completed e.simulated w) fun _ w => GivenUp e.simulated w := by
  have hstart : Holds e.simulated none w :=
    ⟨by rw [startedAgent?, hseen]; rfl,
      by rw [seenCommands, hseen]; exact List.forall_mem_nil _, hleft⟩
  exact reaches_requireTools_onSuccess (reaches_during he hbody hstart) fun _ => .unstarted hstart

theorem reaches_dispatch (c : CommandSpec) (host : Network.Address) (limit : Option Nat)
    (hseen : w.tools.seen = []) (hleft : w.leftBehind = []) :
    (d.dispatch e.watched c (.remote host) limit).Reaches drop now w
      (fun _ _ w => Completed e.simulated w) fun _ w => GivenUp e.simulated w :=
  d.reaches_requireTools he _ (fun _ => d.spares_remoteSteps he _ c limit) hseen hleft

theorem reaches_fetch (host : Network.Address) (there here : String) (hseen : w.tools.seen = [])
    (hleft : w.leftBehind = []) :
    (d.fetch e.watched host there here).Reaches drop now w
      (fun _ _ w => Completed e.simulated w) fun _ w => GivenUp e.simulated w := by
  refine d.reaches_requireTools he _ (fun a => ?_) hseen hleft
  exact preserves_onSuccess (spares_runChecked he (Runner.not_isKill_pull _ _ _ a) none) fun _ =>
    preserves_pure _

end Dispatcher

/-- **An agent is killed once, after all that is done with it**, and its kill changes no answer. A
command may be answered anything after any time, and whoever waits may be dropped at any instant. -/
theorem Dispatcher.agent_killed_once (d : Dispatcher) (c : CommandSpec) (host : Network.Address)
    (limit : Option Nat) (there here : String) (he : e.Orderly) (hagree : e.AgreesBut e' IsKill)
    {w : Host (Watched τ)} (hseen : w.tools.seen = []) (hleft : w.leftBehind = [])
    (drop : Option Nat) (now : Nat) :
    Bracketed e.simulated
      ((d.dispatch e.watched c (.remote host) limit).runUnder drop now w).state ∧
      Bracketed e.simulated ((d.fetch e.watched host there here).runUnder drop now w).state ∧
      SameAnswer (d.dispatch e c (.remote host) limit) (d.dispatch e' c (.remote host) limit) ∧
      SameAnswer (d.fetch e host there here) (d.fetch e' host there here) := by
  refine ⟨Reaches.state ?_, Reaches.state ?_, ?_, ?_⟩
  · exact (d.reaches_dispatch he c host limit hseen hleft).mono (fun _ _ _ h => h.bracketed)
      fun _ _ h => h.bracketed
  · exact (d.reaches_fetch he host there here hseen hleft).mono (fun _ _ _ h => h.bracketed)
      fun _ _ h => h.bracketed
  · refine sameAnswer_bind _ fun tools => ?_
    cases tools with
    | ok => exact sameAnswer_during hagree fun a => d.remoteSteps_eq hagree _ c limit a
    | error err => exact sameAnswer_pure _
  · refine sameAnswer_bind _ fun tools => ?_
    cases tools with
    | ok =>
      refine sameAnswer_during hagree fun a => ?_
      rw [runChecked_eq hagree (Runner.not_isKill_pull _ _ _ a)]
    | error err => exact sameAnswer_pure _

/-! ### A runner that hangs -/

/-- The agent prints where it is; the runner takes an hour for every answer. -/
def hungRunner : List Rehearsal.CommandRule :=
  [{ program := some "ssh-agent"
     output :=
       { stdout := "SSH_AUTH_SOCK=/tmp/a.sock;\nSSH_AGENT_PID=41;\n", exitCode := some 0 } },
   { program := some "ssh", delay := 3600 }]

/-- An executor on which no kill succeeds. -/
def Executor.unkilling (e : Executor τ) : Executor τ where
  simulated := e.simulated
  run c limit :=
    if c.program = "ssh-agent" ∧ c.args = ["-k"] then
      pure (.error (.command "ssh-agent -k" (some 1) ""))
    else e.run c limit

theorem Executor.agreesBut_unkilling (e : Executor τ) : e.AgreesBut e.unkilling IsKill where
  simulated := rfl
  run h _ := (if_neg h).symm

def oneKeyDispatcher : Dispatcher :=
  Dispatcher.make
    { sshKeys := ["/k"], awsCredentialsDir := none, gceCredentialsFile := none,
      azureCredentialsDir := none }
    (EnvForwarder.ofVariables [Variable.stem] []) "/runs/a" ["/bin"]

/-- A host with what runners take. -/
def sshHost : Host (Watched Rehearsal.CommandLog) where
  files := ⟨[("bin", .dir (["rsync", "ssh", "ssh-add", "ssh-agent"].map fun tool =>
    (tool, .file ByteArray.empty true)))]⟩
  tools := { tools := {} }

/-- The runner is given up after a minute, with an agent running. -/
theorem Dispatcher.agent_killed_once_hungRunner :
    ((oneKeyDispatcher.dispatch (Rehearsal.executor false hungRunner).watched (command "./sct.py")
        (.remote ⟨10, 0, 0, 9⟩) none).runUnder (some 60000) 0 sshHost).state.startedAgent? false =
      some ⟨"/tmp/a.sock", "41"⟩ ∧
    Bracketed false ((oneKeyDispatcher.dispatch (Rehearsal.executor false hungRunner).watched
      (command "./sct.py") (.remote ⟨10, 0, 0, 9⟩) none).runUnder
      (some 60000) 0 sshHost).state := by
  have hkilled := oneKeyDispatcher.agent_killed_once (command "./sct.py")
    ⟨10, 0, 0, 9⟩ none "latest/"
    "artifacts" (Rehearsal.orderly_executor false hungRunner) (Executor.agreesBut_unkilling _)
    (w := sshHost) rfl rfl (some 60000) 0
  exact ⟨by decide +kernel, hkilled.1⟩

end Stagehand
