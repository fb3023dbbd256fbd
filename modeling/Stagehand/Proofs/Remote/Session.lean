import Stagehand.Proofs.Remote.Agent
import Stagehand.Proofs.Remote.Statements

/-!
# All that is done under an agent leads to it

The variables of an agent are put into each command that is run under it, and into its kill. So
while an agent is attended (`Host.Attends`), every command but the one that started it leads to it,
and this holds of whatever a use of a runner leaves behind, wherever it is dropped (`Host.Served`).
Together with how an agent is read off what its start prints, the settings that were printed are
those that are carried.

Main result: `Dispatcher.carries_printed_agent`.
-/

namespace Stagehand

open Timed KeyAgent Host

variable {τ α : Type} {e : Executor τ}

/-! ## What is seen of an agent -/

namespace KeyAgent

theorem not_leads_startCommand (a : KeyAgent) : ¬ a.Leads startCommand := fun h => by
  cases h.socket

theorem startedBy?_eq_none {simulated : Bool} {c : CommandSpec} (hc : c ≠ startCommand)
    (answer : RunResult CommandOutput) : startedBy? simulated (.answered c answer) = none := by
  cases answer with
  | error => rfl
  | ok output => exact if_neg fun h => hc h.1

end KeyAgent

namespace Host

/-- There is at most this agent: none else was seen to start, and all commands but the start
lead to it. -/
structure Serves (simulated : Bool) (agent : Option KeyAgent) (w : Host (Watched τ)) : Prop where
  started : ∀ s ∈ w.tools.seen, ∀ a ∈ startedBy? simulated s, a ∈ agent
  led : ∀ c ∈ w.issued, c = startCommand ∨ ∃ a ∈ agent, a.Leads c

/-- No command was left behind yet. -/
structure Attends (simulated : Bool) (agent : Option KeyAgent) (w : Host (Watched τ)) : Prop extends
    Serves simulated agent w where
  left : w.leftBehind = []

/-- All commands but the start lead to the agent that was seen to start. -/
def Served (simulated : Bool) (w : Host (Watched τ)) : Prop := ∃ agent, Serves simulated agent w

variable {simulated : Bool} {agent : Option KeyAgent} {w : Host (Watched τ)} {a : KeyAgent}

/-- Once the start has printed this, all commands but the start lead to the agent. -/
def LedTo (a : KeyAgent) (printed : String) (w : Host (Watched τ)) : Prop :=
  ∀ output : CommandOutput, .answered startCommand (.ok output) ∈ w.tools.seen →
    output.success = true → output.stdout = printed → ∀ c ∈ w.issued, c ≠ startCommand → a.Leads c

theorem Serves.served (h : Serves simulated agent w) : Served simulated w := ⟨agent, h⟩

/-- The agent that can be read off what the start has printed is the one that all
commands lead to. -/
theorem Served.ledTo (h : Served simulated w) {printed : String} (hparse : parse printed = .ok a) :
    LedTo (if simulated then standIn else a) printed w := by
  obtain ⟨agent, hstarted, hled⟩ := h
  rintro output hanswered hsuccess rfl c hc hstart
  have hread : startedBy? simulated (.answered startCommand (.ok output)) =
      some (if simulated then standIn else a) := by
    rw [startedBy?, if_pos ⟨rfl, hsuccess⟩, ofOutput?, hparse]
    split <;> rfl
  have hagent := hstarted _ hanswered _ hread
  obtain ⟨b, hb, hleads⟩ := (hled c hc).resolve_left hstart
  obtain rfl : b = _ := Option.mem_unique hb hagent
  exact hleads

/-- Before an agent has started, any may start. -/
theorem Attends.of_none (h : Attends simulated none w) (agent : Option KeyAgent) :
    Attends simulated agent w where
  started s hs a ha := nomatch h.started s hs a ha
  led c hc := (h.led c hc).imp_right fun ⟨_, ha, _⟩ => nomatch ha
  left := h.left

theorem issued_see_issued (c : CommandSpec) (inner : Host τ) (hleft : inner.leftBehind = []) :
    (inner.watchedBy (w.see (.issued c))).issued = w.seenCommands ++ [c] := by
  have hseen : (inner.watchedBy (w.see (.issued c))).seenCommands = w.seenCommands ++ [c] :=
    seenCommands_see_issued c w
  have hnone : (inner.watchedBy (w.see (.issued c))).leftBehind = [] := hleft
  rw [issued, hseen, hnone, List.append_nil]

theorem Attends.issue (h : Attends simulated agent w) {c : CommandSpec}
    (hc : c = startCommand ∨ ∃ a ∈ agent, a.Leads c) {inner : Host τ}
    (hleft : inner.leftBehind = []) :
    Attends simulated agent (inner.watchedBy (w.see (.issued c))) where
  started s hs := by
    have hseen : s ∈ w.tools.seen ++ [.issued c] := hs
    rcases List.mem_append.1 hseen with hs | hs
    · exact h.started s hs
    · obtain rfl := List.mem_singleton.1 hs
      exact fun a ha => nomatch ha
  led := by
    rw [issued_see_issued c inner hleft, List.forall_mem_append, List.forall_mem_singleton]
    exact ⟨fun d hd => h.led d (List.mem_append_left _ hd), hc⟩
  left := hleft

/-- Of what is answered, only what starts an agent counts. -/
theorem Attends.answer (h : Attends simulated agent w) {c : CommandSpec}
    (answer : RunResult CommandOutput)
    (hc : ∀ a ∈ startedBy? simulated (.answered c answer), a ∈ agent) :
    Attends simulated agent (w.see (.answered c answer)) where
  started := by
    show ∀ s ∈ w.tools.seen ++ [.answered c answer], _
    rw [List.forall_mem_append, List.forall_mem_singleton]
    exact ⟨h.started, hc⟩
  led := by
    rw [issued, seenCommands_see_answered]
    exact h.led
  left := h.left

end Host

/-! ## Steps -/

section Watching

variable {deadline limit : Option Nat} {now : Nat} {simulated : Bool} {agent : Option KeyAgent}
  {w : Host (Watched τ)} {a : KeyAgent} {c : CommandSpec}

theorem preserves_runChecked_of_leads (he : e.Orderly) (hc : a.Leads c) (limit : Option Nat) :
    (e.watched.runChecked c limit).Preserves (Attends simulated (some a)) := by
  intro deadline now w hw
  have hissued : ∀ {h : Host τ}, h.leftBehind = [] →
      Attends simulated (some a) (h.watchedBy (w.see (.issued c))) :=
    hw.issue (.inr ⟨a, rfl, hc⟩)
  have hstart : c ≠ startCommand := fun heq => a.not_leads_startCommand (heq ▸ hc)
  rw [Executor.runChecked, reaches_bind, Executor.reaches_watched]
  refine (he c limit deadline now w.unwatched hw.left).mono (fun answer _ h hleft => ?_)
    fun _ _ hleft => hissued hleft
  have hanswered := (hissued hleft).answer answer fun b hb => by
    rw [startedBy?_eq_none hstart] at hb
    cases hb
  cases answer <;> exact (reaches_pure _).2 hanswered

/-- The agent that starts is the one that is attended from then on. -/
theorem reaches_startCommand_attending (he : e.Orderly) (hw : Attends simulated none w) :
    (e.watched.runChecked startCommand limit).Reaches deadline now w
      (fun result _ w => Attends simulated (result.toOption.bind (ofOutput? simulated)) w)
      fun _ w => Served simulated w := by
  rw [Executor.runChecked, reaches_bind, Executor.reaches_watched]
  refine (he startCommand limit deadline now w.unwatched hw.left).mono (fun answer _ h hleft => ?_)
    fun _ _ hleft => (hw.issue (.inl rfl) hleft).toServes.served
  have hissued := (hw.of_none (startedBy? simulated (.answered startCommand answer))).issue
    (.inl rfl) hleft
  have hanswered := hissued.answer answer fun _ hb => hb
  cases answer with
  | error err => exact (reaches_pure _).2 hanswered
  | ok output =>
    rw [startedBy?_startCommand] at hanswered
    exact (reaches_pure _).2 hanswered

/-- A kill that is left behind leads to the agent. -/
theorem reaches_holding_attending {x : Timed (Host (Watched τ)) α}
    (h : x.Preserves (Attends simulated (some a))) (hw : Attends simulated (some a) w) :
    (a.holding x).Reaches deadline now w (fun _ _ w => Attends simulated (some a) w)
      fun _ w => Served simulated w := by
  rw [KeyAgent.holding, reaches_whenAbandoned]
  refine (h deadline now w hw).mono (fun _ _ _ hw => hw) fun _ w hw => ⟨some a, hw.started, ?_⟩
  have hissued : (w.leave a.kill).issued = w.issued ++ [a.kill] := (List.append_assoc ..).symm
  rw [hissued, List.forall_mem_append, List.forall_mem_singleton]
  exact ⟨hw.led, .inr ⟨a, rfl, a.leads_withEnv _⟩⟩

/-- **Whatever comes of a use of an agent, and wherever it is dropped**, what was done led
to the agent. -/
theorem reaches_during_attending (he : e.Orderly) {keys : List String}
    {body : KeyAgent → Timed (Host (Watched τ)) (RunResult α)}
    (hbody : ∀ a, (body a).Preserves (Attends e.simulated (some a)))
    (hw : Attends e.simulated none w) :
    (during e.watched keys body).Reaches deadline now w (fun _ _ w => Served e.simulated w)
      fun _ w => Served e.simulated w := by
  rw [during_eq, reaches_bind]
  refine (reaches_session_of (reaches_startCommand_attending he hw) (fun a key _ _ hw => ?_)
    fun a _ _ hw => reaches_holding_attending (hbody a) hw).mono (fun r time w hw => ?_)
      fun _ _ hw => hw
  · exact reaches_holding_attending (preserves_runChecked_of_leads he (a.leads_withEnv _) none) hw
  · obtain ⟨result, agent⟩ := r
    cases agent with
    | none => exact (reaches_pure _).2 hw.toServes.served
    | some a =>
      rw [conclude, reaches_bind, KeyAgent.stop, reaches_bind]
      refine (preserves_runChecked_of_leads he (a.leads_withEnv _) none _ _ _ hw).mono
        (fun _ _ _ hw => ?_) fun _ _ hw => hw.toServes.served
      exact (reaches_pure _).2 ((reaches_pure _).2 hw.toServes.served)

end Watching

/-! ## Dispatching -/

namespace Dispatcher

variable (d : Dispatcher) (he : e.Orderly) {w : Host (Watched τ)} {drop : Option Nat} {now : Nat}
include he

theorem served_requireTools (tools : List String)
    {body : KeyAgent → Timed (Host (Watched τ)) (RunResult α)}
    (hbody : ∀ a, (body a).Preserves (Attends e.simulated (some a)))
    (hseen : w.tools.seen = []) (hleft : w.leftBehind = []) :
    Served e.simulated (((requireTools d.searchDirs tools).onSuccess fun () =>
      during e.watched d.settings.sshKeys body).runUnder drop now w).state := by
  have hstart : Attends e.simulated none w := by
    refine ⟨⟨?_, ?_⟩, hleft⟩
    · rw [hseen]
      exact List.forall_mem_nil _
    · rw [issued, seenCommands, hseen, hleft]
      exact List.forall_mem_nil _
  exact Reaches.state
    (reaches_requireTools_onSuccess (reaches_during_attending he hbody hstart) fun _ =>
      hstart.toServes.served)

theorem served_dispatch (c : CommandSpec) (host : Network.Address) (limit : Option Nat)
    (hseen : w.tools.seen = []) (hleft : w.leftBehind = []) :
    Served e.simulated
        ((d.dispatch e.watched c (.remote host) limit).runUnder drop now w).state := by
  refine d.served_requireTools he _ (fun a => ?_) hseen hleft
  have hled : ∀ c limit, (e.watched.runChecked (CommandSpec.withEnv c a.env) limit).Preserves
      (Attends e.simulated (some a)) := fun _ =>
        preserves_runChecked_of_leads he (a.leads_withEnv _)
  exact d.preserves_remoteSteps _ c limit (fun _ _ => hled _ none) (fun _ => hled _ none)
    fun _ => hled _ limit

theorem served_fetch (host : Network.Address) (there here : String) (hseen : w.tools.seen = [])
    (hleft : w.leftBehind = []) :
    Served e.simulated ((d.fetch e.watched host there here).runUnder drop now w).state := by
  refine d.served_requireTools he _ (fun a => ?_) hseen hleft
  exact preserves_onSuccess (preserves_runChecked_of_leads he (a.leads_withEnv _) none) fun _ =>
    preserves_pure _

end Dispatcher

/-- **The agent whose settings are printed is the one that all commands lead to.** The two settings
may be printed in either order, among whatever else; without one of them no agent is found. In a
simulation, the stand-in takes the place of what is printed. -/
theorem Dispatcher.carries_printed_agent (d : Dispatcher) (c : CommandSpec) (host : Network.Address)
    (limit : Option Nat) (there here : String) (he : e.Orderly) {a : KeyAgent}
    (hsocket : IsPlain a.socket) (hpid : IsPlain a.pid) {before between after first second : String}
    (hsurrounds : Surrounds before between after) (hset : a.IsSetBy first second)
    {w : Host (Watched τ)} (hseen : w.tools.seen = []) (hleft : w.leftBehind = [])
    (drop : Option Nat)
    (now : Nat) :
    let printed := putBetween before first (putBetween between second after)
    let leading := if e.simulated then standIn else a
    parse printed = .ok a ∧
      (∀ lacking ∈
        [putBetween before first (between ++ after), before ++ putBetween between second after,
          before ++ between ++ after], parse lacking = .error (unexpected lacking)) ∧
      LedTo leading printed
        ((d.dispatch e.watched c (.remote host) limit).runUnder drop now w).state ∧
      LedTo leading printed ((d.fetch e.watched host there here).runUnder drop now w).state := by
  have hparse := hsurrounds.parse_eq_ok hset hsocket hpid
  exact ⟨hparse, fun _ => hsurrounds.parse_eq_error hset hsocket hpid,
    (d.served_dispatch he c host limit hseen hleft).ledTo hparse,
    (d.served_fetch he host there here hseen hleft).ledTo hparse⟩

/-! ### An agent with much to say -/

/-- An agent whose socket looks like a setting. -/
def oddAgent : KeyAgent := ⟨"/tmp/SSH_AGENT_PID=7/agent.41", "42"⟩

/-- The agent tells its process first, and prints statements around the settings. -/
def oddAgentPrints : String :=
  putBetween "echo Agent pid 42;\n" (setting "SSH_AGENT_PID" oddAgent.pid)
    (putBetween " export SSH_AGENT_PID;\n" (setting "SSH_AUTH_SOCK" oddAgent.socket)
      " export SSH_AUTH_SOCK;\n")

/-- The output that a command is seen to be answered with, if one is. -/
def Sighting.output? : Sighting → Option (CommandSpec × CommandOutput)
  | answered c (.ok output) => some (c, output)
  | issued _ | answered _ (.error _) => none

theorem Sighting.eq_answered_of_output? {sighting : Sighting} {c : CommandSpec}
    {output : CommandOutput} (h : sighting.output? = some (c, output)) :
    sighting = .answered c (.ok output) := by
  cases sighting with
  | issued => cases h
  | answered d answer =>
    cases answer with
    | error => cases h
    | ok printed =>
      cases h
      rfl

/-- The output of that agent. -/
def oddAgentOutput : CommandOutput := { stdout := oddAgentPrints, exitCode := some 0 }

/-- An executor that starts that agent. -/
def oddAgentExecutor : Executor Rehearsal.CommandLog :=
  Rehearsal.executor false [{ program := some "ssh-agent", output := oddAgentOutput }]

/-- A use of a runner under that agent. -/
def oddAgentUse : Ended (Host (Watched Rehearsal.CommandLog)) (RunResult CommandOutput) :=
  (oneKeyDispatcher.dispatch oddAgentExecutor.watched (command "./sct.py") (.remote ⟨10, 0, 0, 9⟩)
    none).runUnder none 0 sshHost

theorem Dispatcher.carries_printed_agent_oddAgent :
    parse oddAgentPrints = .ok oddAgent ∧
      oddAgentUse.state.issued.map (·.program) =
        ["ssh-agent", "ssh-add", "rsync", "ssh", "ssh", "ssh-agent"] ∧
      ∀ c ∈ oddAgentUse.state.issued, c ≠ startCommand → oddAgent.Leads c := by
  have hsurrounds : Surrounds "echo Agent pid 42;\n" " export SSH_AGENT_PID;\n"
      " export SSH_AUTH_SOCK;\n" := ⟨by decide, by decide, by decide⟩
  obtain ⟨hparse, -, hled, -⟩ := oneKeyDispatcher.carries_printed_agent (command "./sct.py")
    ⟨10, 0, 0, 9⟩ none "latest/" "artifacts" (e := oddAgentExecutor)
    (Rehearsal.orderly_executor false _) (a := oddAgent) (by decide)
    (by decide) hsurrounds .pidFirst
    (w := sshHost) rfl rfl none 0
  have hrun : oddAgentUse.state.issued.map (·.program) =
        ["ssh-agent", "ssh-add", "rsync", "ssh", "ssh", "ssh-agent"] ∧
      (startCommand, oddAgentOutput) ∈ oddAgentUse.state.tools.seen.filterMap Sighting.output? := by
    decide +kernel
  obtain ⟨hissued, hprinted⟩ := hrun
  obtain ⟨sighting, hseen, houtput⟩ := List.mem_filterMap.1 hprinted
  rw [Sighting.eq_answered_of_output? houtput] at hseen
  replace hled : LedTo oddAgent oddAgentPrints oddAgentUse.state := hled
  exact ⟨hparse, hissued, hled oddAgentOutput hseen (by decide) rfl⟩

end Stagehand
