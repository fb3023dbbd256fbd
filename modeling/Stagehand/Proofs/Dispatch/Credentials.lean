import Stagehand.Proofs.Dispatch.Secrets

/-!
# Which AWS credentials reach a runner

AWS credentials come to a runner by two ways: as variables of the container, or as a directory that
is copied. A dispatch that comes to its container has issued a fixed series of commands before it,
and the directory was copied **exactly if the host has no key that travels**
(`Dispatcher.aws_directory_copied`). That decision is taken without the command, whose variables the
container gets too. So the two ways agree exactly if the command does not set the key, or sets one
where the host has one and none where the host has none.
-/

namespace Stagehand

open Timed

variable {τ α β : Type}

theorem Timed.onSuccess_assoc {σ γ : Type} (x : Timed σ (RunResult α))
    (f : α → Timed σ (RunResult β)) (g : β → Timed σ (RunResult γ)) :
    (x.onSuccess f).onSuccess g = x.onSuccess fun a => (f a).onSuccess g := by
  rw [onSuccess, onSuccess, bind_assoc]
  congr 1
  funext result
  cases result <;> rfl

/-! ## Errands run no containers -/

theorem ContainerInvocation.remoteLine_ne_groups (i : ContainerInvocation) :
    i.remoteLine ≠ "id -G" := by
  intro h
  have hdocker : "docker" ∈ i.sensitiveEnv.map Shell.assignmentWord ++ i.toCommand.argv := by
    rw [argv_toCommand]
    exact List.mem_append_right _ List.mem_cons_self
  have hinside := Shell.infix_quoteAll_of_mem (u := "docker".toList)
    (by decide) hdocker List.infix_rfl
  rw [← remoteLine, h, ← Text.occursIn_iff] at hinside
  revert hinside
  decide

theorem Runner.program_container (r : Runner) (i : ContainerInvocation) :
    (r.container i).program = "ssh" :=
  (List.cons.inj (CommandSpec.argv_foldl_secret _ _ _)).1

/-- An errand runs no container, neither here nor on a runner. -/
theorem CommandSpec.IsErrand.not_runs {c : CommandSpec} (h : c.IsErrand) (i : ContainerInvocation) :
    ¬ c.Runs i := by
  intro hruns
  cases hruns with
  | here dir => cases h.workdir
  | there r a =>
    rcases h.kind with hprogram | ⟨r', a', heq⟩
    · rw [program_withEnv, r.program_container] at hprogram
      revert hprogram
      decide
    · have hargs : (r.container i).args = (r'.ssh "id -G").args := by
        have hargv := congrArg argv heq
        rw [argv_withEnv, argv_withEnv] at hargv
        exact (List.cons.inj hargv).2
      have hlast := r.getLast?_container i
      rw [hargs] at hlast
      exact i.remoteLine_ne_groups (Option.some.inj hlast).symm

/-! ## What is issued while a directory is there -/

/-- Nothing that is run takes a path away, however it ends. -/
def Executor.Keeps (e : Executor τ) (path : String) : Prop :=
  ∀ c limit deadline now h, h.files.holds h.cwd path = true →
    (e.run c limit).Reaches deadline now h (fun _ _ h => h.files.holds h.cwd path = true)
      fun _ h => h.files.holds h.cwd path = true

/-- These commands were issued, and the path is there. -/
structure Host.HasIssued (path : String) (issued : List CommandSpec) (w : Host (Watched τ)) :
    Prop where
  seen : w.seenCommands = issued
  there : w.files.holds w.cwd path = true

/-- Where these commands were issued, an activity only ends with lists of commands that
`K` holds of. -/
def Ends (path : String) (x : Timed (Host (Watched τ)) α) (issued : List CommandSpec)
    (K : List CommandSpec → Prop) : Prop :=
  ∀ deadline now w, Host.HasIssued path issued w →
    x.Reaches deadline now w (fun _ _ w => ∃ issued', Host.HasIssued path issued' w ∧ K issued')
      fun _ w => ∃ issued', Host.HasIssued path issued' w ∧ K issued'

section Ends

variable {path : String} {issued : List CommandSpec} {K K' : List CommandSpec → Prop}
  {e : Executor τ} {x : Timed (Host (Watched τ)) α} {f : α → Timed (Host (Watched τ)) β}

theorem ends_pure (h : K issued) (a : α) :
    Ends path (pure a : Timed (Host (Watched τ)) α) issued K :=
  fun _ _ _ hw => (reaches_pure _).2 ⟨issued, hw, h⟩

theorem Ends.mono (h : Ends path x issued K') (hK : ∀ issued', K' issued' → K issued') :
    Ends path x issued K := by
  intro deadline now w hw
  refine (h deadline now w hw).mono ?_ ?_
  · rintro _ _ _ ⟨issued', hw', hK'⟩
    exact ⟨issued', hw', hK issued' hK'⟩
  · rintro _ _ ⟨issued', hw', hK'⟩
    exact ⟨issued', hw', hK issued' hK'⟩

theorem ends_bind (hx : Ends path x issued K') (hcut : ∀ issued', K' issued' → K issued')
    (hf : ∀ a issued', K' issued' → Ends path (f a) issued' K) : Ends path (x >>= f) issued K := by
  intro deadline now w hw
  rw [reaches_bind]
  refine (hx deadline now w hw).mono ?_ ?_
  · rintro a time w' ⟨issued', hw', hK'⟩
    exact hf a issued' hK' deadline time w' hw'
  · rintro time w' ⟨issued', hw', hK'⟩
    exact ⟨issued', hw', hcut issued' hK'⟩

theorem ends_onSuccess {x : Timed (Host (Watched τ)) (RunResult α)}
    {f : α → Timed (Host (Watched τ)) (RunResult β)} (hx : Ends path x issued K')
    (hcut : ∀ issued', K' issued' → K issued')
    (hf : ∀ a issued', K' issued' → Ends path (f a) issued' K) :
    Ends path (x.onSuccess f) issued K := by
  refine ends_bind hx hcut fun result issued' hK' => ?_
  cases result with
  | ok a => exact hf a issued' hK'
  | error err => exact ends_pure (hcut issued' hK') _

theorem ends_runChecked (he : e.Keeps path) (c : CommandSpec) (limit : Option Nat) :
    Ends path (e.watched.runChecked c limit) issued fun issued' => issued' = issued ++ [c] := by
  have hrun : Ends path (e.watched.run c limit) issued fun issued' => issued' = issued ++ [c] := by
    intro deadline now w hw
    have hissued : ∀ h : Host τ, h.files.holds h.cwd path = true →
        Host.HasIssued path (issued ++ [c]) (h.watchedBy (w.see (.issued c))) := fun h hthere =>
      ⟨(Host.seenCommands_see_issued c w).trans (by rw [hw.seen]), hthere⟩
    rw [Executor.reaches_watched]
    refine (he c limit deadline now w.unwatched hw.there).mono (fun answer _ h hthere => ?_)
      fun _ h hthere => ⟨_, hissued h hthere, rfl⟩
    refine ⟨_, ⟨?_, hthere⟩, rfl⟩
    rw [Host.seenCommands_see_answered]
    exact (hissued h hthere).seen
  refine ends_bind hrun (fun _ => id) fun answer issued' hissued' => ?_
  cases answer <;> exact ends_pure (K := fun issued' => issued' = issued ++ [c]) hissued' _

theorem ends_holding {a : KeyAgent} (h : Ends path x issued K) :
    Ends path (a.holding x) issued K := by
  intro deadline now w hw
  rw [KeyAgent.holding, reaches_whenAbandoned]
  refine (h deadline now w hw).mono (fun _ _ _ hend => hend) ?_
  rintro _ _ ⟨issued', hw', hK⟩
  exact ⟨issued', ⟨hw'.seen, hw'.there⟩, hK⟩

theorem ends_look {find : FileTree → List String → α}
    (hf : ∀ files cwd, files.holds cwd path = true → Ends path (f (find files cwd)) issued K) :
    Ends path (Host.look find >>= f) issued K := by
  intro deadline now w hw
  rw [Host.look, reaches_bind, reaches_modifyGet]
  exact hf w.files w.cwd hw.there deadline now w hw

theorem ends_runIfCalled (he : e.Keeps path) {a : KeyAgent}
    {find : FileTree → List String → Option CommandSpec} :
    Ends path (Dispatcher.runIfCalled e.watched a find) issued fun issued' =>
      ∃ files cwd, files.holds cwd path = true ∧
        issued' = issued ++ (find files cwd).toList.map (·.withEnv a.env) := by
  refine ends_look fun files cwd hthere => ?_
  cases hfind : find files cwd with
  | none =>
    refine ends_pure ⟨files, cwd, hthere, ?_⟩ _
    rw [hfind]
    exact (List.append_nil _).symm
  | some c =>
    have hissued : ∀ issued', issued' = issued ++ [c.withEnv a.env] → ∃ files cwd,
        files.holds cwd path = true ∧
          issued' = issued ++ (find files cwd).toList.map (·.withEnv a.env) := by
      rintro _ rfl
      refine ⟨files, cwd, hthere, ?_⟩
      rw [hfind]
      rfl
    exact ends_onSuccess (ends_runChecked he _ none) hissued fun _ issued' h =>
      ends_pure (hissued issued' h) _

end Ends

/-! ## Up to the container -/

/-- None of these commands runs a container. -/
def Containerless (issued : List CommandSpec) : Prop := ∀ c ∈ issued, ∀ i, ¬ c.Runs i

theorem Containerless.append {issued more : List CommandSpec} (h : Containerless issued)
    (hmore : ∀ c ∈ more, c.IsErrand) : Containerless (issued ++ more) := by
  intro c hc i
  rcases List.mem_append.1 hc with hc | hc
  · exact h c hc i
  · exact (hmore c hc).not_runs i

section Errands

variable {path : String} {issued : List CommandSpec} {K : List CommandSpec → Prop} {e : Executor τ}
  (he : e.Keeps path) (hissued : Containerless issued)
  (hK : ∀ issued', Containerless issued' → K issued')
include he hissued hK

/-- An errand is run, and no container has been run by then. -/
theorem ends_errand {c : CommandSpec} (hc : c.IsErrand) {limit : Option Nat}
    {f : CommandOutput → Timed (Host (Watched τ)) (RunResult β)}
    (hf : ∀ output, Containerless (issued ++ [c]) → Ends path (f output) (issued ++ [c]) K) :
    Ends path ((e.watched.runChecked c limit).onSuccess f) issued K := by
  have hfree : Containerless (issued ++ [c]) := hissued.append (List.forall_mem_singleton.2 hc)
  refine ends_onSuccess (ends_runChecked he c limit) ?_ ?_
  · rintro _ rfl
    exact hK _ hfree
  · rintro output _ rfl
    exact hf output hfree

/-- Credentials are copied if the files call for it, and no container has been run by then. -/
theorem ends_copy {a : KeyAgent} {r : Runner} {find : FileTree → List String → Option CommandSpec}
    (hfind : ∀ files cwd, ∀ c ∈ find files cwd, ∃ here there, c = r.push here there)
    {f : Unit → Timed (Host (Watched τ)) (RunResult β)}
    (hf : ∀ files cwd, files.holds cwd path = true →
      Containerless (issued ++ (find files cwd).toList.map (·.withEnv a.env)) →
      Ends path (f ()) (issued ++ (find files cwd).toList.map (·.withEnv a.env)) K) :
    Ends path ((Dispatcher.runIfCalled e.watched a find).onSuccess f) issued K := by
  have hfree : ∀ files cwd,
      Containerless (issued ++ (find files cwd).toList.map (·.withEnv a.env)) := by
    intro files cwd
    refine hissued.append fun c hc => ?_
    obtain ⟨push, hpush, rfl⟩ := List.mem_map.1 hc
    obtain ⟨here, there, rfl⟩ := hfind files cwd push (Option.mem_toList.1 hpush)
    exact r.isErrand_push here there a
  refine ends_onSuccess (ends_runIfCalled he) ?_ ?_
  · rintro _ ⟨files, cwd, -, rfl⟩
    exact hK _ (hfree files cwd)
  · rintro _ _ ⟨files, cwd, hthere, rfl⟩
    exact hf files cwd hthere (hfree files cwd)

/-- The keys of an agent are loaded one after the other, and no container has been run by then. -/
theorem ends_loading {a : KeyAgent} {keys : List String}
    {f : Unit → Timed (Host (Watched τ)) (RunResult β)}
    (hf : Containerless (issued ++ keys.map a.addKey) →
      Ends path (f ()) (issued ++ keys.map a.addKey) K) :
    Ends path ((a.loading e.watched keys).onSuccess f) issued K := by
  induction keys generalizing issued with
  | nil =>
    rw [List.map_nil, List.append_nil] at hf
    exact hf hissued
  | cons key rest ih =>
    rw [KeyAgent.loading, Timed.onSuccess_assoc]
    have hadded : Containerless (issued ++ [a.addKey key]) :=
      hissued.append (List.forall_mem_singleton.2 (a.isErrand_addKey key))
    refine ends_onSuccess (ends_holding (ends_runChecked he (a.addKey key) none)) ?_ ?_
    · rintro _ rfl
      exact hK _ hadded
    · rintro _ _ rfl
      refine ih hadded fun hloaded => ?_
      rw [List.append_assoc] at hloaded ⊢
      exact hf hloaded

end Errands

namespace Dispatcher

/-- The commands that bring a container to a runner: under an agent with its keys the workspace is
copied, and the AWS directory if the host has no key that travels; then what another provider calls
for, and the container gets the groups. -/
def containerSteps (d : Dispatcher) (c : CommandSpec) (r : Runner) (awsDir : String) (a : KeyAgent)
    (providerPush : Option CommandSpec) (groupIds : List String) : List CommandSpec :=
  KeyAgent.startCommand :: d.settings.sshKeys.map a.addKey ++
    ([r.push (Path.asDirectory d.workspace) r.workspace] ++
      (if d.forwarder.hasAwsCredentials then [] else [r.push (Path.asDirectory awsDir) ".aws/"]) ++
      providerPush.toList ++
      [r.ssh "id -G", r.container { d.invocation c r.workspace with groupIds }]).map
      (·.withEnv a.env)

/-- No container was run, or one was, after all steps that bring it to the runner. -/
def ComesToContainer (d : Dispatcher) (c : CommandSpec) (r : Runner) (awsDir : String)
    (issued : List CommandSpec) : Prop :=
  Containerless issued ∨ ∃ a files cwd groupIds rest,
    issued = d.containerSteps c r awsDir a (d.providerPush r files cwd) groupIds ++ rest ∧
      Containerless rest

variable {d : Dispatcher} {c : CommandSpec} {r : Runner} {awsDir : String} {e : Executor τ}
  {issued : List CommandSpec}

theorem ComesToContainer.append {more : List CommandSpec} (h : d.ComesToContainer c r awsDir issued)
    (hmore : ∀ c ∈ more, c.IsErrand) : d.ComesToContainer c r awsDir (issued ++ more) := by
  rcases h with h | ⟨a, files, cwd, groupIds, rest, rfl, hrest⟩
  · exact .inl (h.append hmore)
  · refine .inr ⟨a, files, cwd, groupIds, rest ++ more, ?_, hrest.append hmore⟩
    rw [List.append_assoc]

theorem awsPush_of_there (hdir : d.settings.awsCredentialsDir = some awsDir) {files : FileTree}
    {cwd : List String} (hthere : files.holds cwd awsDir = true) :
    (d.awsPush r files cwd).toList =
      if d.forwarder.hasAwsCredentials then [] else [r.push (Path.asDirectory awsDir) ".aws/"] := by
  rw [awsPush, hdir]
  split
  · rfl
  · rw [present, Option.filter_some, if_pos hthere]
    rfl

variable (he : e.Keeps awsDir) (hdir : d.settings.awsCredentialsDir = some awsDir)
include he hdir

/-- The steps under an agent end with the container, or come to none. -/
theorem ends_remoteSteps (limit : Option Nat) (a : KeyAgent)
    (hkeys : Containerless (KeyAgent.startCommand :: d.settings.sshKeys.map a.addKey)) :
    Ends awsDir (d.remoteSteps e.watched r c limit a)
      (KeyAgent.startCommand :: d.settings.sshKeys.map a.addKey)
      (d.ComesToContainer c r awsDir) := by
  have hnone : ∀ issued, Containerless issued → d.ComesToContainer c r awsDir issued :=
    fun _ => .inl
  refine ends_errand he hkeys hnone (r.isErrand_push _ _ a) fun _ hissued => ?_
  refine ends_copy he hissued hnone (fun _ _ _ => exists_push_of_awsPush)
    fun files cwd hthere hissued => ?_
  rw [awsPush_of_there hdir hthere] at hissued ⊢
  refine ends_copy he hissued hnone (fun _ _ _ => exists_push_of_providerPush)
    fun files cwd _ hissued => ?_
  refine ends_errand he hissued hnone (r.isErrand_groups a) fun listed _ => ?_
  refine (ends_runChecked he _ limit).mono ?_
  rintro _ rfl
  refine .inr ⟨a, files, cwd, groupIds listed.stdout, [], ?_, List.forall_mem_nil _⟩
  simp only [containerSteps, List.map_append, List.map_cons, List.map_nil, List.append_assoc,
    List.append_nil, List.cons_append, List.nil_append]

/-- Once an agent has started, its keys are loaded, and the steps are taken. -/
theorem ends_session (limit : Option Nat) :
    Ends awsDir
      (KeyAgent.session e.watched d.settings.sshKeys (d.remoteSteps e.watched r c limit)) []
      (d.ComesToContainer c r awsDir) := by
  have hnone : Containerless [] := List.forall_mem_nil _
  have hstart : Containerless [KeyAgent.startCommand] :=
    hnone.append (List.forall_mem_singleton.2 ⟨.inl (by decide), rfl⟩)
  rw [KeyAgent.session]
  -- Up to the steps on the runner nothing but errands is issued.
  refine ends_bind (ends_runChecked he KeyAgent.startCommand none) ?_ ?_
  · rintro _ rfl
    exact .inl hstart
  rintro started _ rfl
  rcases started with err | output
  · exact ends_pure (.inl hstart) _
  dsimp only
  rcases (if e.watched.simulated then Except.ok KeyAgent.standIn
    else KeyAgent.parse output.stdout) with
    err | a
  · exact ends_pure (.inl hstart) _
  · have hused : Ends awsDir ((a.loading e.watched d.settings.sshKeys).onSuccess fun () =>
        a.holding (d.remoteSteps e.watched r c limit a)) [KeyAgent.startCommand]
        (d.ComesToContainer c r awsDir) :=
      ends_loading he hstart (fun _ => .inl) fun hkeys =>
        ends_holding (ends_remoteSteps he hdir limit a hkeys)
    exact ends_bind hused (fun _ => id) fun _ _ h => ends_pure h _

theorem ends_dispatch (host : Network.Address) (limit : Option Nat) :
    Ends awsDir (d.dispatch e.watched c (.remote host) limit) []
      (d.ComesToContainer c (d.runner host) awsDir) := by
  refine ends_look fun files cwd _ => ?_
  rcases checkTools files cwd d.searchDirs (Target.remote host).tools with err | _
  · exact ends_pure (.inl (List.forall_mem_nil _)) _
  dsimp only
  rw [KeyAgent.during_eq]
  refine ends_bind (ends_session he hdir limit) (fun _ => id) ?_
  rintro ⟨result, agent⟩ issued hissued
  rcases agent with _ | a
  · exact ends_pure hissued _
  · have hkill : ∀ issued', issued' = issued ++ [a.kill] →
        d.ComesToContainer c (d.runner host) awsDir issued' := by
      rintro _ rfl
      exact hissued.append (List.forall_mem_singleton.2 a.isErrand_kill)
    have hstop : Ends awsDir (a.stop e.watched) issued
        (d.ComesToContainer c (d.runner host) awsDir) :=
      ends_bind (ends_runChecked he a.kill none) hkill fun _ _ h => ends_pure (hkill _ h) _
    exact ends_bind hstop (fun _ => id) fun _ _ h => ends_pure h _

omit he hdir

theorem hasAwsCredentials_iff (f : EnvForwarder) :
    f.hasAwsCredentials = true ↔ ∃ key ∈ f.get? awsKeyVariable, key ≠ "" := by
  rw [EnvForwarder.hasAwsCredentials]
  cases f.get? awsKeyVariable <;> simp

/-- **A dispatch that comes to its container has copied the AWS directory exactly if the host has no
key that travels.** The container has no key exactly then, if the command sets no key that may
travel, or one where the host has one and an empty one where the host has none. -/
theorem aws_directory_copied (d : Dispatcher) (c : CommandSpec) (host : Network.Address)
    (limit : Option Nat) (he : e.Keeps awsDir) (hdir : d.settings.awsCredentialsDir = some awsDir)
    {w : Host (Watched τ)} (hseen : w.tools.seen = []) (hthere : w.files.holds w.cwd awsDir = true)
    (drop : Option Nat) (now : Nat) :
    d.ComesToContainer c (d.runner host) awsDir
      ((d.dispatch e.watched c (.remote host) limit).runUnder drop now w).state.seenCommands ∧
    ∀ workspace,
      ((d.forwarder.hasAwsCredentials = true ↔
          ∃ key ∈ (d.invocation c workspace).env.get? awsKeyVariable, key ≠ "") ↔
        ∀ key ∈ c.env.get? awsKeyVariable, d.forwarder.isAllowed awsKeyVariable = true →
          (key ≠ "" ↔ d.forwarder.hasAwsCredentials = true)) := by
  constructor
  · have hstart : Host.HasIssued awsDir [] w := by
      refine ⟨?_, hthere⟩
      rw [Host.seenCommands, hseen]
      rfl
    refine Reaches.state (P := fun w : Host (Watched τ) =>
      d.ComesToContainer c (d.runner host) awsDir w.seenCommands) ?_
    refine (ends_dispatch he hdir host limit drop now w hstart).mono ?_ ?_
    · rintro _ _ w' ⟨issued, hissued, hcomes⟩
      rwa [hissued.seen]
    · rintro _ w' ⟨issued, hissued, hcomes⟩
      rwa [hissued.seen]
  · intro workspace
    -- The copy is decided by the variables of the host, and the container gets the merged ones.
    have hkey : (d.invocation c workspace).env.get? awsKeyVariable =
        if d.forwarder.isAllowed awsKeyVariable then
          (c.env.get? awsKeyVariable).or (d.forwarder.get? awsKeyVariable)
        else d.forwarder.get? awsKeyVariable :=
      d.forwarder.get?_merged_eq_ite c.env awsKeyVariable
    rw [hkey, hasAwsCredentials_iff]
    by_cases hallowed : d.forwarder.isAllowed awsKeyVariable = true
    · rw [if_pos hallowed]
      cases c.env.get? awsKeyVariable with
      | none => simp
      | some key => simp [hallowed, iff_comm]
    · simp [hallowed]

/-! ### A key of the command -/

open ToolSteps (silent)

/-- A dispatcher with an AWS directory, on a host with some variables. -/
def awsDispatcher (vars : List (String × String)) : Dispatcher :=
  Dispatcher.make
    { sshKeys := [], awsCredentialsDir := some "/creds", gceCredentialsFile := none,
      azureCredentialsDir := none }
    (EnvForwarder.ofVariables ["AWS_"] vars) "/runs/a" ["/bin"]

/-- A host with that directory, and with what runners take. -/
def awsHost : Host (Watched Unit) where
  files := ⟨[("bin", .dir (["rsync", "ssh", "ssh-add", "ssh-agent"].map fun tool =>
    (tool, .file ByteArray.empty true))), ("creds", .dir [])]⟩
  tools := { tools := () }

/-- A command that sets the key. -/
def keyCommand (key : String) : CommandSpec := (command "./sct.py").setEnv awsKeyVariable key

/-- An executor that runs nothing takes nothing away. -/
theorem keeps_dryRun (note : String → τ → τ) (path : String) :
    (DryRun.executor note).Keeps path := by
  intro c limit deadline now h hthere
  show (Timed.modify _ >>= fun _ => pure _).Reaches deadline now h _ _
  rw [reaches_bind, reaches_modify]
  exact (reaches_pure _).2 hthere

/-- What is issued when that command is dispatched. -/
def keyCommandsIssued (vars : List (String × String)) (key : String) : List CommandSpec :=
  (((awsDispatcher vars).dispatch silent.watched (keyCommand key) (.remote ⟨10, 0, 0, 9⟩)
    none).runUnder none 0 awsHost).state.seenCommands

theorem aws_directory_copied_keyCommand :
    (awsDispatcher []).ComesToContainer (keyCommand "AKIA")
      ((awsDispatcher []).runner ⟨10, 0, 0, 9⟩)
      "/creds" (keyCommandsIssued [] "AKIA") ∧
    ¬ ((awsDispatcher []).forwarder.hasAwsCredentials = true ↔
      ∃ key ∈ ((awsDispatcher []).invocation (keyCommand "AKIA") "/w").env.get? awsKeyVariable,
        key ≠ "") := by
  obtain ⟨hcomes, hagree⟩ := aws_directory_copied (awsDispatcher []) (keyCommand "AKIA")
    ⟨10, 0, 0, 9⟩ none (keeps_dryRun (fun _ _ => ()) "/creds") rfl (w := awsHost) rfl (by decide)
    none 0
  refine ⟨hcomes, fun h => ?_⟩
  have hkey := (hagree "/w").1 h "AKIA" (by decide) (by decide)
  exact absurd (hkey.1 (by decide)) (by decide)

/-- Where a command copies to, or else its program. -/
def destination (c : CommandSpec) : String :=
  if c.program = "rsync" then c.args.getLast?.getD "" else c.program

/-- The directory is copied beside a key of the command; and if the command blanks the key of the
host, the container has neither. -/
theorem aws_directory_beside_key :
    ((keyCommandsIssued [] "AKIA").map destination =
        ["ssh-agent", "ubuntu@10.0.0.9:/home/ubuntu/sct-workspace", "ubuntu@10.0.0.9:.aws/", "ssh",
          "ssh", "ssh-agent"] ∧
      ∀ workspace, ((awsDispatcher []).invocation (keyCommand "AKIA") workspace).env.get?
        awsKeyVariable = some "AKIA") ∧
    (keyCommandsIssued [(awsKeyVariable, "AKIA")] "").map destination =
        ["ssh-agent", "ubuntu@10.0.0.9:/home/ubuntu/sct-workspace", "ssh", "ssh", "ssh-agent"] ∧
      ∀ workspace, ((awsDispatcher [(awsKeyVariable, "AKIA")]).invocation (keyCommand "")
        workspace).env.get? awsKeyVariable = some "" := by
  have hissued : (keyCommandsIssued [] "AKIA").map destination =
        ["ssh-agent", "ubuntu@10.0.0.9:/home/ubuntu/sct-workspace", "ubuntu@10.0.0.9:.aws/", "ssh",
          "ssh", "ssh-agent"] ∧
      (keyCommandsIssued [(awsKeyVariable, "AKIA")] "").map destination =
        ["ssh-agent", "ubuntu@10.0.0.9:/home/ubuntu/sct-workspace", "ssh", "ssh", "ssh-agent"] := by
    decide +kernel
  exact ⟨⟨hissued.1, fun _ => rfl⟩, hissued.2, fun _ => rfl⟩

end Dispatcher

end Stagehand
