import Stagehand.Proofs.Command.Secrets
import Stagehand.Proofs.Dispatch.Selectors
import Stagehand.Proofs.Remote.Agent

/-!
# The secrets of a container

A command is dispatched in a container of its own. The command that runs the container, here or on a
runner, is built anew from the arguments and the variables of the dispatched one, and so are its
secrets: they are the values of the sensitive variables that the container gets, **and no others**
(`CommandSpec.Runs.mem_secrets`). These are never shown. A secret of the dispatched command that is
not among them is shown wherever it occurs in an argument.

Main results: `Dispatcher.secrets_never_shown` and `Dispatcher.secrets_of_containers`.
-/

namespace Stagehand

open Timed

/-- A variable has the value of the command if it may travel and the command sets it, or else that
of the host. -/
theorem EnvForwarder.get?_merged_eq_ite (f : EnvForwarder) (overlay : NameMap String)
    (name : String) :
    (f.merged overlay).get? name =
      if f.isAllowed name then (overlay.get? name).or (f.get? name) else f.get? name :=
  NameMap.get?_insertAll_filter f.forwarded overlay f.isAllowed name

/-! ## Commands that run containers -/

namespace CommandSpec.Runs

variable {i : ContainerInvocation} {spec : CommandSpec}

/-- Of the variables of a container, the command that runs it keeps the sensitive ones secret. -/
theorem mem_secrets (h : spec.Runs i) {s : String} :
    s ∈ spec.secrets ↔ s ≠ "" ∧ ∃ v ∈ i.env.toList, isSensitive v.1 = true ∧ v.2 = s := by
  have hsensitive : ∀ v, v ∈ i.sensitiveEnv ↔ v ∈ i.env.toList ∧ isSensitive v.1 = true := by
    intro v
    exact List.mem_filter
  cases h with
  | here dir =>
    show s ∈ i.toCommand.secrets ↔ _
    rw [ContainerInvocation.toCommand, mem_secrets_withEnv]
    simp [withArgs, hsensitive, and_assoc]
  | there r a =>
    have hagent : ¬ ∃ v ∈ a.env, isSensitive v.1 = true ∧ v.2 = s := by
      have hsocket : isSensitive "SSH_AUTH_SOCK" = false := by decide
      have hpid : isSensitive "SSH_AGENT_PID" = false := by decide
      simp [KeyAgent.env, hsocket, hpid]
    rw [mem_secrets_withEnv, Runner.container, mem_secrets_foldl_secret]
    simp [Runner.ssh, command, withArgs, hsensitive, hagent, and_assoc]

theorem exists_mem_argv (h : spec.Runs i) {u : List Char} (hu : '\'' ∉ u) {word : String}
    (hword : word ∈ i.command) (hin : u <:+: word.toList) : ∃ w ∈ spec.argv, u <:+: w.toList := by
  have hargs : word ∈ "docker" :: i.args :=
    List.mem_cons_of_mem _ (List.mem_append_right _ hword)
  cases h with
  | here dir =>
    have hargv : (i.toCommand.inDir dir).argv = "docker" :: i.args := i.argv_toCommand
    exact ⟨word, hargv ▸ hargs, hin⟩
  | there r a =>
    have hline : i.remoteLine ∈ (r.container i).args :=
      List.mem_of_getLast? (r.getLast?_container i)
    refine ⟨i.remoteLine, ?_, ?_⟩
    · rw [argv_withEnv]
      exact List.mem_cons_of_mem _ hline
    · rw [ContainerInvocation.remoteLine, i.argv_toCommand]
      exact Shell.infix_quoteAll_of_mem hu (List.mem_append_right _ hargs) hin

end CommandSpec.Runs

theorem CommandSpec.commandLine_eq_quoteAll {c : CommandSpec}
    (h : ∀ s ∈ c.secrets, HiddenIn s (Shell.quoteAll c.argv) ∧ ∀ word ∈ c.argv, HiddenIn s word) :
    c.commandLine = Shell.quoteAll c.argv := by
  have hwords : (c.argv.map fun word => Shell.quote (c.redact word)) = c.argv.map Shell.quote := by
    refine List.map_congr_left fun word hword => ?_
    rw [redact_of_hiddenIn fun s hs => (h s hs).2 word hword]
  rw [commandLine, hwords]
  exact redact_of_hiddenIn fun s hs => (h s hs).1

namespace Dispatcher

variable {τ : Type} (d : Dispatcher) (e : Executor τ) (c : CommandSpec) (target : Target)
  (limit : Option Nat)

/-- All that a dispatch issues is errands, and containers of the dispatched command. -/
theorem invocation_of_mem_seenCommands {drop : Option Nat} {now : Nat} (hdrop : meets now drop)
    {h : Host (Watched τ)} (hseen : h.tools.seen = []) :
    ∀ spec ∈ ((d.dispatch e.watched c target limit).runUnder drop now h).state.seenCommands,
      spec.IsErrand ∨
        ∃ workspace groupIds, spec.Runs { d.invocation c workspace with groupIds } := by
  have hrun := runsAs_dispatch (e.runAs_hasSeenOnly fun spec => spec.IsErrand ∨
      ∃ workspace groupIds, spec.Runs { d.invocation c workspace with groupIds })
    (fun _ => .inl) d (c := c) (.inr ⟨d.workspace, [], .here d.workspace⟩)
    (fun r groupIds a => .inr ⟨r.workspace, groupIds, .there r a⟩) target limit
  have hstart : h.seenCommands = [] := by
    rw [Host.seenCommands, hseen]
    rfl
  exact (hrun drop now h h hdrop ⟨rfl, by simp [hstart]⟩).state.2

/-- The containers have the merged variables and the words of the dispatched command. -/
theorem runs_of_mem_seenCommands {drop : Option Nat} {now : Nat} (hdrop : meets now drop)
    {h : Host (Watched τ)} (hseen : h.tools.seen = []) :
    ∀ spec ∈ ((d.dispatch e.watched c target limit).runUnder drop now h).state.seenCommands,
      spec.IsErrand ∨
        ∃ i, spec.Runs i ∧ i.env = d.forwarder.merged c.env ∧ i.command = c.argv := by
  intro spec hspec
  rcases d.invocation_of_mem_seenCommands e c target limit hdrop hseen spec hspec with
    herrand | ⟨workspace, groupIds, hruns⟩
  · exact .inl herrand
  · exact .inr ⟨_, hruns, rfl, rfl⟩

/-- **Registered secrets are never shown**, if they have no asterisk: not by the command that they
were registered with, whatever calls it is built by, and not by one that runs a container and hands
them over. Where no secret has an asterisk, redacting twice is redacting once. -/
theorem secrets_never_shown (program : String) (calls : List CommandSpec.Extension)
    {drop : Option Nat} {now : Nat} (hdrop : meets now drop) {h : Host (Watched τ)}
    (hseen : h.tools.seen = []) :
    (∀ s ∈ calls.flatMap CommandSpec.Extension.registered, s ≠ "" → '*' ∉ s.toList →
      (CommandSpec.built program calls).Hides s) ∧
    ((∀ s ∈ calls.flatMap CommandSpec.Extension.registered, '*' ∉ s.toList) → ∀ text,
      (CommandSpec.built program calls).redact ((CommandSpec.built program calls).redact text) =
        (CommandSpec.built program calls).redact text) ∧
    ∀ spec ∈ ((d.dispatch e.watched c target limit).runUnder drop now h).state.seenCommands,
      spec.IsErrand ∨
        ∃ i, spec.Runs i ∧ i.env = d.forwarder.merged c.env ∧ i.command = c.argv ∧
          ∀ v ∈ i.env.toList, isSensitive v.1 = true → v.2 ≠ "" → '*' ∉ v.2.toList →
            spec.Hides v.2 := by
  refine ⟨?_, ?_, ?_⟩
  · intro s hs hne hstar
    exact CommandSpec.hides_of_mem_secrets (CommandSpec.mem_secrets_built.2 ⟨hne, hs⟩) hne hstar
  · intro hstar text
    have hmem : ∀ s ∈ (CommandSpec.built program calls).secrets,
        s ≠ "" ∧ s ∈ calls.flatMap CommandSpec.Extension.registered :=
      fun s hs => CommandSpec.mem_secrets_built.1 hs
    exact CommandSpec.redact_redact (fun s hs => (hmem s hs).1)
      (fun s hs => hstar s (hmem s hs).2) text
  · intro spec hspec
    rcases d.runs_of_mem_seenCommands e c target limit hdrop hseen spec hspec with
      herrand | ⟨i, hruns, henv, hcommand⟩
    · exact .inl herrand
    · refine .inr ⟨i, hruns, henv, hcommand, ?_⟩
      intro v hv hsensitive hne hstar
      have hmem := hruns.mem_secrets.2 ⟨hne, v, hv, hsensitive, rfl⟩
      exact CommandSpec.hides_of_mem_secrets hmem hne hstar

/-- **A container keeps the secrets that it is handed, and forgets the others.** The secrets of the
dispatched command make no difference to what is dispatched. The command that runs the container has
the values of the sensitive variables that travel for secrets, those of the dispatched command and
of the host, and hides them. Where none of them occurs in its words, it is shown as it stands, with
all that the words of the dispatched command hold. -/
theorem secrets_of_containers {drop : Option Nat} {now : Nat} (hdrop : meets now drop)
    {h : Host (Watched τ)} (hseen : h.tools.seen = []) :
    (∀ secrets, d.dispatch e { c with secrets } target limit = d.dispatch e c target limit) ∧
    ∀ spec ∈ ((d.dispatch e.watched c target limit).runUnder drop now h).state.seenCommands,
      spec.IsErrand ∨
        ∃ i, spec.Runs i ∧ i.command = c.argv ∧
          (∀ s, s ∈ spec.secrets ↔ s ≠ "" ∧ ∃ name, isSensitive name = true ∧
            (if d.forwarder.isAllowed name then (c.env.get? name).or (d.forwarder.get? name)
              else d.forwarder.get? name) = some s) ∧
          (∀ s ∈ spec.secrets, '*' ∉ s.toList → spec.Hides s) ∧
          ((∀ s ∈ spec.secrets,
              HiddenIn s (Shell.quoteAll spec.argv) ∧ ∀ word ∈ spec.argv, HiddenIn s word) →
            spec.commandLine = Shell.quoteAll spec.argv ∧
              ∀ s word, word ∈ c.argv → '\'' ∉ s → s <:+: word.toList →
                s <:+: spec.commandLine.toList) := by
  refine ⟨fun _ => rfl, ?_⟩
  intro spec hspec
  rcases d.runs_of_mem_seenCommands e c target limit hdrop hseen spec hspec with
    herrand | ⟨i, hruns, henv, hcommand⟩
  · exact .inl herrand
  refine .inr ⟨i, hruns, hcommand, ?_, ?_, ?_⟩
  · intro s
    simp only [hruns.mem_secrets, henv, Prod.exists, NameMap.mem_toList_iff,
      EnvForwarder.get?_merged_eq_ite]
    grind
  · intro s hs hstar
    exact CommandSpec.hides_of_mem_secrets hs (hruns.mem_secrets.1 hs).1 hstar
  · intro hhidden
    have hline := CommandSpec.commandLine_eq_quoteAll hhidden
    refine ⟨hline, ?_⟩
    intro s word hword hquote hin
    rw [← hcommand] at hword
    obtain ⟨w, hw, hinside⟩ := hruns.exists_mem_argv hquote hword hin
    rw [hline]
    exact Shell.infix_quoteAll_of_mem hquote hw hinside

/-! ### A command with a password -/

open ToolSteps (silent dockerHost)

/-- A dispatcher for a host that has a credential, with a blank in it. -/
def credentialDispatcher : Dispatcher :=
  Dispatcher.make
    { sshKeys := [], awsCredentialsDir := none, gceCredentialsFile := none,
      azureCredentialsDir := none }
    (EnvForwarder.ofVariables ["AWS_"] [("AWS_SECRET_ACCESS_KEY", "wJal rXUt")]) "/runs/a" ["/bin"]

def passwordCommand : CommandSpec :=
  ((command "./sct.py").withArgs ["--password", "hunter2"]).secret "hunter2"

/-- Calls that register secrets which share characters, one with a quote in it. -/
def overlappingCalls : List CommandSpec.Extension :=
  [.args ["ababab", "it's aba"], .secret "aba", .env "API_TOKEN" "bab",
    .envs [("DB_PASSWORD", "aba's")]]

theorem seenCommands_passwordCommand :
    ((credentialDispatcher.dispatch silent.watched passwordCommand .here none).runUnder none 0
      dockerHost).state.seenCommands = [credentialDispatcher.localCommand passwordCommand] := by
  decide +kernel

theorem secrets_never_shown_overlappingCalls :
    (∀ s ∈ ["aba", "bab", "aba's"], (CommandSpec.built "tool" overlappingCalls).Hides s) ∧
      (credentialDispatcher.localCommand passwordCommand).Hides "wJal rXUt" := by
  have hdrop : meets 0 none := rfl
  obtain ⟨hbuilt, -, hcontainers⟩ := secrets_never_shown credentialDispatcher silent passwordCommand
    .here none "tool" overlappingCalls hdrop (h := dockerHost) rfl
  constructor
  · have hregistered : ∀ s ∈ ["aba", "bab", "aba's"],
        s ∈ overlappingCalls.flatMap CommandSpec.Extension.registered ∧ s ≠ "" ∧
        '*' ∉ s.toList := by
      decide +kernel
    intro s hs
    obtain ⟨hmem, hne, hstar⟩ := hregistered s hs
    exact hbuilt s hmem hne hstar
  · rw [seenCommands_passwordCommand] at hcontainers
    rcases hcontainers _ List.mem_cons_self with herrand | ⟨i, -, henv, -, hhides⟩
    · cases herrand.workdir
    · have hcredential : ("AWS_SECRET_ACCESS_KEY", "wJal rXUt") ∈ i.env.toList := by
        rw [henv]
        decide +kernel
      exact hhides _ hcredential (by decide +kernel) (by decide) (by decide)

/-- The credential is a secret of the container, and the password is none. -/
theorem secrets_of_containers_passwordCommand :
    (credentialDispatcher.localCommand passwordCommand).Hides "wJal rXUt" ∧
      "hunter2".toList <:+:
        (credentialDispatcher.localCommand passwordCommand).commandLine.toList := by
  have hdrop : meets 0 none := rfl
  obtain ⟨-, hcontainers⟩ := secrets_of_containers credentialDispatcher silent passwordCommand .here
    none hdrop (h := dockerHost) rfl
  rw [seenCommands_passwordCommand] at hcontainers
  rcases hcontainers _ List.mem_cons_self with herrand | ⟨i, -, -, -, hhides, hshown⟩
  · cases herrand.workdir
  · have hsecrets : (credentialDispatcher.localCommand passwordCommand).secrets =
        ["wJal rXUt"] := by
      decide +kernel
    have hwords : ∀ word ∈ (credentialDispatcher.localCommand passwordCommand).argv,
        HiddenIn "wJal rXUt" word := by decide +kernel
    have hquoted : HiddenIn "wJal rXUt"
        (Shell.quoteAll (credentialDispatcher.localCommand passwordCommand).argv) := by
      constructor
      · rw [Shell.toList_quoteAll, ← Text.occursIn_iff]
        decide +kernel
      · rw [Shell.toList_quoteAll, ← Text.occursIn_iff]
        decide +kernel
    have hline := hshown (by simpa [hsecrets] using ⟨hquoted, hwords⟩)
    exact ⟨hhides _ (by decide +kernel) (by decide),
      hline.2 _ "hunter2" (by decide) (by decide) List.infix_rfl⟩

/-- A registered secret is shown by the command that runs the container. -/
theorem secret_shown_passwordCommand :
    "hunter2" ∈ passwordCommand.secrets ∧ '*' ∉ "hunter2".toList ∧
      ∃ spec ∈
        ((oneKeyDispatcher.dispatch silent.watched passwordCommand .here none).runUnder none 0
          dockerHost).state.seenCommands,
        "hunter2".toList <:+: spec.commandLine.toList := by
  have hseen :
    ((oneKeyDispatcher.dispatch silent.watched passwordCommand .here none).runUnder none 0
      dockerHost).state.seenCommands = [oneKeyDispatcher.localCommand passwordCommand] := by
    decide +kernel
  have hnone : (oneKeyDispatcher.localCommand passwordCommand).secrets = [] := by decide +kernel
  have hline : (oneKeyDispatcher.localCommand passwordCommand).commandLine =
      Shell.quoteAll (oneKeyDispatcher.localCommand passwordCommand).argv :=
    CommandSpec.commandLine_eq_quoteAll (by simp [hnone])
  have hword : "hunter2" ∈ (oneKeyDispatcher.localCommand passwordCommand).argv := by decide +kernel
  refine ⟨by decide, by decide, _, by rw [hseen]; exact List.mem_cons_self, ?_⟩
  rw [hline]
  exact Shell.infix_quoteAll_of_mem (by decide) hword List.infix_rfl

end Dispatcher

end Stagehand
