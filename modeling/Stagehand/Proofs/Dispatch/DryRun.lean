import Mathlib.Data.List.Forall2
import Stagehand.Command.DryRun
import Stagehand.Proofs.AtOnce
import Stagehand.Proofs.Dispatch.Steps

/-!
# What a dry run shows

A dry run runs no command, and notes its line instead. What it cannot have it makes up: an agent
stands in for the one that no command printed, the address of the runner is one set aside for
documentation, and nobody is in any group. A directory that is not there stays away.

So it is compared with a live run on which all goes well (`ToolSteps.GoesWell`): every command
succeeds at once, the agent that is started can be read, the runner that is created has that same
address, and the directories of the workspace are there. The hosts of the two may differ in their
files, as long as they have the same tools and credentials.

* `DryRun.Shows`: a line shows a command of the live run. Agents do not show, since their variables
  are no part of a command line; groups do, since they are arguments of the container.
* `ToolSteps.GoesWell.keepsPace_dispatch` and its neighbours: both runs go through each step at once
  (`DryRun.KeepsPace`), command by command.

Main result: `ToolSteps.dryRun_shows_live`.
-/

namespace Stagehand

open Timed

variable {τ α β : Type}

/-! ## Command lines -/

/-- A command line tells nothing but the program with its arguments, and hides the secrets. -/
theorem CommandSpec.commandLine_congr {c c' : CommandSpec} (hargv : c.argv = c'.argv)
    (hsecrets : c.secrets = c'.secrets) : c.commandLine = c'.commandLine := by
  unfold commandLine redact
  rw [hargv, hsecrets]

theorem CommandSpec.secrets_withEnv {vars : List (String × String)}
    (h : ∀ v ∈ vars, isSensitive v.1 = false) (c : CommandSpec) :
    (c.withEnv vars).secrets = c.secrets := by
  induction vars generalizing c with
  | nil => rfl
  | cons v vars ih =>
    have hset : (c.setEnv v.1 v.2).secrets = c.secrets := by
      simp [setEnv, h v List.mem_cons_self]
    have hrest := ih (fun u hu => h u (List.mem_cons_of_mem v hu)) (c.setEnv v.1 v.2)
    rw [withEnv, List.foldl_cons, ← withEnv, hrest, hset]

/-- Under which agent a command is run does not show. -/
theorem KeyAgent.commandLine_withEnv (a : KeyAgent) (c : CommandSpec) :
    (c.withEnv a.env).commandLine = c.commandLine := by
  have hnames : ∀ name ∈ ["SSH_AUTH_SOCK", "SSH_AGENT_PID"], isSensitive name = false := by
    decide +kernel
  refine CommandSpec.commandLine_congr (CommandSpec.argv_withEnv _ _)
    (CommandSpec.secrets_withEnv (fun v hv => hnames v.1 ?_) c)
  exact List.mem_map_of_mem (f := Prod.fst) hv

def Settings.credentialPaths (s : Settings) : List (Option String) :=
  [s.awsCredentialsDir, s.gceCredentialsFile, s.azureCredentialsDir]

namespace Dispatcher

theorem groupIds_of_blank {printed : String} (h : ∀ ch ∈ printed.toList, Text.isBlank ch) :
    groupIds printed = [] := by
  have hpieces : ∀ cs : List Char, (∀ ch ∈ cs, Text.isBlank ch) →
      ∀ w ∈ Text.pieces Text.isBlank cs, w = [] := by
    intro cs hcs
    induction cs with
    | nil => simp [Text.pieces]
    | cons ch cs ih =>
      rw [Text.pieces, if_pos (hcs ch List.mem_cons_self)]
      exact List.forall_mem_cons.2 ⟨rfl, ih fun d hd => hcs d (List.mem_cons_of_mem ch hd)⟩
  have hfields : Text.fields Text.isBlank printed.toList = [] := by
    refine List.filter_eq_nil_iff.2 fun w hw => ?_
    simp [hpieces _ h w hw]
  rw [groupIds, Text.words, hfields, List.map_nil]

/-- Which credentials are copied depends on which of them are there. -/
theorem pushes_congr {d : Dispatcher} {files files' : FileTree} {cwd cwd' : List String}
    (h : ∀ path ∈ d.settings.credentialPaths, present files cwd path = present files' cwd' path)
    (r : Runner) : d.awsPush r files cwd = d.awsPush r files' cwd' ∧
      d.providerPush r files cwd = d.providerPush r files' cwd' := by
  have haws := h _ List.mem_cons_self
  have hgce := h _ (List.mem_cons_of_mem _ List.mem_cons_self)
  have hazure := h _ (List.mem_cons_of_mem _ (List.mem_cons_of_mem _ List.mem_cons_self))
  constructor
  · rw [awsPush, awsPush, haws]
  · rw [providerPush, providerPush, hgce, hazure]

end Dispatcher

/-! ## The two runs -/

namespace DryRun

/-- The executor of a dry run, which keeps the command lines. -/
def recorder : Executor (List String) := executor fun line lines => lines ++ [line]

/-- A line of the dry run shows a command of the live run. `Prints` tells what runners print when
they are asked for groups. -/
inductive Shows (Prints : String → Prop) : String → CommandSpec → Prop where
  | line {line : String} {c : CommandSpec} : c.commandLine = line → Shows Prints line c
  /-- A container on a runner, but for the groups: they are its `--group-add` arguments. -/
  | groups (r : Runner) {i : ContainerInvocation} (a : KeyAgent) {printed : String} :
      i.groupIds = [] → Prints printed →
      Shows Prints (r.container i).commandLine
        ((r.container { i with groupIds := Dispatcher.groupIds printed }).withEnv a.env)

/-- Where nobody is in a group, a line shows a command as it is. -/
theorem Shows.commandLine_eq {Prints : String → Prop} {line : String} {c : CommandSpec}
    (h : Shows Prints line c)
    (hblank : ∀ printed, Prints printed → ∀ ch ∈ printed.toList, Text.isBlank ch) :
    line = c.commandLine := by
  cases h with
  | line h => exact h.symm
  | groups r a hbare hprinted =>
    rw [a.commandLine_withEnv, Dispatcher.groupIds_of_blank (hblank _ hprinted), ← hbare]

/-- Between two commands: the dry run has shown what the live run has issued, and `Alike` relates
the files of the one to the host of the other. -/
structure Mirrors (Alike : FileTree → List String → Host τ → Prop) (Prints : String → Prop)
    (dry : Host (List String)) (live : Host (Watched τ)) : Prop where
  alike : Alike dry.files dry.cwd live.unwatched
  shows : List.Forall₂ (Shows Prints) dry.tools live.seenCommands

/-- The dry run goes through a step together with the live run: both at once, both succeed or both
refuse, and one mirrors the other again. -/
def KeepsPace (Alike : FileTree → List String → Host τ → Prop) (Prints : String → Prop)
    (x : Timed (Host (List String)) (RunResult α)) (y : Timed (Host (Watched τ)) (RunResult β)) :
    Prop :=
  AtOnce (Mirrors Alike Prints) x y (Agree (fun _ _ => Mirrors Alike Prints) (Mirrors Alike Prints))

theorem KeepsPace.answers {Alike : FileTree → List String → Host τ → Prop} {Prints : String → Prop}
    {x : Timed (Host (List String)) (RunResult Unit)}
    {y : Timed (Host (Watched τ)) (RunResult Unit)}
    (h : KeepsPace Alike Prints x y) : AtOnce (Mirrors Alike Prints) x y
      fun result result' dry live => result = result' ∧ Mirrors Alike Prints dry live :=
  AtOnce.same (h.mono fun _ _ _ _ hs => hs.mono fun _ _ _ _ hab => ⟨rfl, hab⟩)

end DryRun

open DryRun

namespace ToolSteps

/-- The file with the address of the runner of a branch. -/
def addressPath (t : ToolSteps) (ctx : BranchContext) : String :=
  Path.join ctx.workdir t.dispatcher.settings.runnerAddressFile

/-- The directories that a branch makes. -/
def branchDirs (ctx : BranchContext) : List String :=
  ctx.workdir :: Path.join ctx.workdir artifactsDir :: (Path.parent? ctx.workdir).toList

/-- All tools that the steps of a branch may take. -/
def requiredTools : List String := ["git", "cp", "docker", "ssh", "ssh-agent", "ssh-add", "rsync"]

theorem mem_requiredTools (target : Target) : ∀ tool ∈ target.tools, tool ∈ requiredTools := by
  cases target with
  | here => decide
  | remote host =>
    show ∀ tool ∈ ["ssh", "ssh-agent", "ssh-add", "rsync"], tool ∈ requiredTools
    decide

/-- What is asked of the output of a command, and of the host after it. -/
structure Obliges (t : ToolSteps) (ctx : BranchContext) (Prints : String → Prop) (c : CommandSpec)
    (output : CommandOutput) (h : Host τ) : Prop where
  succeeds : output.exitCode = some 0
  /-- An agent tells how it is reached. -/
  agent : c = KeyAgent.startCommand → ∃ a, KeyAgent.parse output.stdout = .ok a
  groups : ∀ (r : Runner) (a : KeyAgent), c = (r.ssh "id -G").withEnv a.env → Prints output.stdout
  /-- The runner that is created has the address that a dry run makes up. -/
  runner : ∀ provider,
    c = (t.dispatcherFor ctx).localCommand (t.tool ctx (createArgs ctx provider)) →
      AddressFile.read (t.addressPath ctx) h.files h.cwd = .ok simulatedAddress

/-- **A live run on which all goes well.** `Alike` relates the files of a dry run to the host of the
live run, and is kept from the start of the branch to its end; `Prints` holds of what runners print
when they are asked for groups. -/
structure GoesWell (t : ToolSteps) (ctx : BranchContext) (e : Executor τ)
    (Alike : FileTree → List String → Host τ → Prop) (Prints : String → Prop) : Prop where
  live : e.simulated = false
  /-- Every command is answered at once. -/
  run : ∀ {c limit deadline now files cwd h}, t.Issues ctx c → meets now deadline →
    Alike files cwd h → ∃ output h',
      (e.run c limit).runUnder deadline now h = ⟨.done (.ok output), now, h'⟩ ∧
        t.Obliges ctx Prints c output h' ∧ Alike files cwd h'
  tools : ∀ {files cwd h}, Alike files cwd h → ∀ tool ∈ requiredTools,
    isInstalled files cwd t.dispatcher.searchDirs tool =
      isInstalled h.files h.cwd t.dispatcher.searchDirs tool
  credentials : ∀ {files cwd h}, Alike files cwd h →
    ∀ path ∈ t.dispatcher.settings.credentialPaths,
      Dispatcher.present files cwd path = Dispatcher.present h.files h.cwd path
  /-- The directories of the workspace are there: making them changes nothing. -/
  directories : ∀ {files cwd h}, Alike files cwd h → ∀ dir ∈ branchDirs ctx,
    h.files.makeDirs h.cwd dir = (.ok (), h.files)
  results : ∀ {files cwd h}, Alike files cwd h →
    h.files.isDir h.cwd (Path.join ctx.workdir resultsDir) = true
  /-- Where the live run has got its address, the dry run can write it down and read it again. -/
  address : ∀ {files cwd h}, Alike files cwd h →
    AddressFile.read (t.addressPath ctx) h.files h.cwd = .ok simulatedAddress →
      ∃ made, AddressFile.write (t.addressPath ctx) simulatedAddress files cwd = (.ok (), made) ∧
        AddressFile.read (t.addressPath ctx) made cwd = .ok simulatedAddress ∧ Alike made cwd h

namespace GoesWell

variable {t : ToolSteps} {ctx : BranchContext} {e : Executor τ}
  {Alike : FileTree → List String → Host τ → Prop} {Prints : String → Prop}
  (h : t.GoesWell ctx e Alike Prints)
include h

/-! ## Commands -/

/-- **One command**: the dry run shows it, and in the live run it succeeds. -/
theorem atOnce_runChecked {c c' : CommandSpec} (hissues : t.Issues ctx c')
    (hshows : Shows Prints c.commandLine c') (limit : Option Nat) :
    AtOnce (Mirrors Alike Prints) (recorder.runChecked c limit) (e.watched.runChecked c' limit)
      (Agree (fun output output' dry live => output.stdout = "" ∧
        t.Obliges ctx Prints c' output' live.unwatched ∧ Mirrors Alike Prints dry live)
        (Mirrors Alike Prints)) := by
  intro deadline now dry live hd hmirrors
  obtain ⟨output, ended, hrun, hobliges, halike⟩ := h.run hissues hd hmirrors.alike
  let live' := (ended.watchedBy (live.see (.issued c'))).see (.answered c' (.ok output))
  have hchecked : output.check c' = .ok output := by
    rw [CommandOutput.check, CommandOutput.success, hobliges.succeeds]
    rfl
  have hseen : live'.seenCommands = live.seenCommands ++ [c'] := by
    rw [Host.seenCommands_see_answered]
    exact Host.seenCommands_see_issued c' live
  have hmirrors' : Mirrors Alike Prints
      { dry with tools := dry.tools ++ [c.commandLine] } live' := by
    refine ⟨halike, ?_⟩
    rw [hseen]
    exact List.rel_append hmirrors.shows (.cons hshows .nil)
  refine ⟨_, _, { dry with tools := dry.tools ++ [c.commandLine] }, live', rfl, ?_,
    .ok ⟨rfl, hobliges, hmirrors'⟩⟩
  rw [Executor.runChecked, runUnder_bind, Executor.runUnder_watched_of_done hrun]
  show (⟨.done (output.check c'), now, live'⟩ : Ended _ _) = _
  rw [hchecked]

theorem keepsPace_runChecked {c c' : CommandSpec} (hissues : t.Issues ctx c')
    (hshows : Shows Prints c.commandLine c') (limit : Option Nat) :
    KeepsPace Alike Prints (recorder.runChecked c limit) (e.watched.runChecked c' limit) :=
  (h.atOnce_runChecked hissues hshows limit).mono fun _ _ _ _ hs =>
    hs.mono fun _ _ _ _ hab => hab.2.2

/-- An errand that the two runs do under agents of their own. -/
theorem keepsPace_errand {c : CommandSpec} (a a' : KeyAgent)
    (herrand : (c.withEnv a'.env).IsErrand) :
    KeepsPace Alike Prints (recorder.runChecked (c.withEnv a.env) none)
      (e.watched.runChecked (c.withEnv a'.env) none) := by
  refine h.keepsPace_runChecked (.errand herrand) (.line ?_) none
  rw [a.commandLine_withEnv, a'.commandLine_withEnv]

theorem checkTools_eq {files : FileTree} {cwd : List String} {host : Host τ}
    (halike : Alike files cwd host) {tools : List String}
    (htools : ∀ tool ∈ tools, tool ∈ requiredTools) :
    checkTools files cwd t.dispatcher.searchDirs tools =
      checkTools host.files host.cwd t.dispatcher.searchDirs tools := by
  have hmissing : missingTools files cwd t.dispatcher.searchDirs tools =
      missingTools host.files host.cwd t.dispatcher.searchDirs tools :=
    List.filter_congr fun tool hmem => congrArg _ (h.tools halike tool (htools tool hmem))
  rw [checkTools, checkTools, hmissing]

theorem keepsPace_requireTools {tools : List String}
    (htools : ∀ tool ∈ tools, tool ∈ requiredTools) :
    KeepsPace Alike Prints (requireTools t.dispatcher.searchDirs tools)
      (requireTools t.dispatcher.searchDirs tools) := by
  refine atOnce_look fun dry live hmirrors => ?_
  rw [h.checkTools_eq hmirrors.alike htools]
  exact .refl _ hmirrors

/-! ## Agents -/

/-- The agent is killed, and what came of its use stays. -/
theorem atOnce_stopped (a a' : KeyAgent) {result : RunResult α} {result' : RunResult β} :
    AtOnce (Agree (fun _ _ => Mirrors Alike Prints) (Mirrors Alike Prints) result result')
      (do a.stop recorder; pure result) (do a'.stop e.watched; pure result')
      (Agree (fun _ _ => Mirrors Alike Prints) (Mirrors Alike Prints)) := by
  have hstop : AtOnce (Mirrors Alike Prints) (a.stop recorder) (a'.stop e.watched)
      fun _ _ => Mirrors Alike Prints := by
    refine atOnce_bind (h.keepsPace_errand a a' a'.isErrand_kill) fun _ _ => atOnce_pure ?_
    rintro dry live (hs | hs) <;> exact ‹_›
  intro deadline now dry live hd hs
  cases hs with
  | ok hmirrors =>
    exact atOnce_bind hstop (fun _ _ => atOnce_pure fun _ _ hs => .ok hs) deadline now dry live hd
      hmirrors
  | error err hmirrors =>
    exact atOnce_bind hstop (fun _ _ => atOnce_pure fun _ _ hs => .error err hs)
      deadline now dry live
      hd hmirrors

theorem keepsPace_loadKeys (a a' : KeyAgent) (keys : List String) :
    KeepsPace Alike Prints (a.loadKeys recorder keys) (a'.loadKeys e.watched keys) := by
  induction keys with
  | nil => exact atOnce_pure fun _ _ hs => .ok hs
  | cons key rest ih =>
    have hadd := h.keepsPace_errand a a' (a'.isErrand_addKey key)
    refine atOnce_bind (atOnce_whenAbandoned _ _ hadd) fun _ _ deadline now dry live hd hs => ?_
    cases hs with
    | ok hmirrors => exact ih deadline now dry live hd hmirrors
    | error err hmirrors =>
      exact h.atOnce_stopped a a' deadline now dry live hd (.error err hmirrors)

/-- The agent that stands in gets the keys of the one that was started. -/
theorem keepsPace_start (keys : List String) :
    KeepsPace Alike Prints (KeyAgent.start recorder keys) (KeyAgent.start e.watched keys) := by
  have hstart := h.atOnce_runChecked (.errand ⟨.inl (by decide), rfl⟩)
    (.line (c := KeyAgent.startCommand) rfl) none
  refine atOnce_onSuccess hstart fun output output' => ?_
  -- The agent of the live run tells how it is reached; the one that stands in need not.
  refine (atOnce_of_and (p := ∃ a, KeyAgent.parse output'.stdout = .ok a) fun hagent => ?_).of_imp
    fun _ _ hs => ⟨hs.2.1.agent rfl, hs.2.2⟩
  obtain ⟨a, hparse⟩ := hagent
  rw [Executor.simulated_watched, h.live, hparse]
  exact h.keepsPace_loadKeys _ a keys

theorem keepsPace_during (keys : List String)
    {x : KeyAgent → Timed (Host (List String)) (RunResult α)}
    {y : KeyAgent → Timed (Host (Watched τ)) (RunResult β)}
    (hx : ∀ a a', KeepsPace Alike Prints (x a) (y a')) :
    KeepsPace Alike Prints (KeyAgent.during recorder keys x)
        (KeyAgent.during e.watched keys y) := by
  refine atOnce_onSuccess (h.keepsPace_start keys) fun a a' => ?_
  exact atOnce_bind (atOnce_whenAbandoned _ _ (hx a a')) fun _ _ => h.atOnce_stopped a a'

/-! ## Dispatching -/

theorem keepsPace_runIfCalled (a a' : KeyAgent) (find : FileTree → List String → Option CommandSpec)
    (hsame : ∀ {files cwd live}, Alike files cwd live → find files cwd = find live.files live.cwd)
    (herrand : ∀ files cwd, ∀ c ∈ find files cwd, (c.withEnv a'.env).IsErrand) :
    KeepsPace Alike Prints (Dispatcher.runIfCalled recorder a find)
      (Dispatcher.runIfCalled e.watched a' find) := by
  intro deadline now dry live hd hmirrors
  have hfound : find dry.files dry.cwd = find live.files live.cwd := hsame hmirrors.alike
  rw [Dispatcher.runIfCalled, Dispatcher.runIfCalled, Host.runUnder_look_bind,
    Host.runUnder_look_bind, hfound]
  cases hcalled : find live.files live.cwd with
  | none => exact ⟨_, _, dry, live, rfl, rfl, .ok hmirrors⟩
  | some c =>
    exact atOnce_forget (h.keepsPace_errand a a' (herrand _ _ c hcalled)) (fun _ _ _ _ hs => hs)
      deadline now dry live hd hmirrors

/-- The container, with the groups that were listed. The dry run has read none. -/
theorem keepsPace_container (args : List String) (r : Runner) (limit : Option Nat) (a a' : KeyAgent)
    {listed listed' : CommandOutput} (hlisted : listed.stdout = "" ∧ Prints listed'.stdout) :
    KeepsPace Alike Prints
      (recorder.runChecked ((r.container
        { (t.dispatcherFor ctx).invocation (t.tool ctx args) r.workspace with
          groupIds := Dispatcher.groupIds listed.stdout }).withEnv a.env) limit)
      (e.watched.runChecked ((r.container
        { (t.dispatcherFor ctx).invocation (t.tool ctx args) r.workspace with
          groupIds := Dispatcher.groupIds listed'.stdout }).withEnv a'.env) limit) := by
  obtain ⟨hnothing, hprinted⟩ := hlisted
  refine h.keepsPace_runChecked (.there args r _ a') ?_ limit
  rw [a.commandLine_withEnv, hnothing]
  exact .groups r a' rfl hprinted

theorem keepsPace_remoteSteps (args : List String) (r : Runner) (limit : Option Nat)
    (a a' : KeyAgent) :
    KeepsPace Alike Prints
      ((t.dispatcherFor ctx).remoteSteps recorder r (t.tool ctx args) limit a)
      ((t.dispatcherFor ctx).remoteSteps e.watched r (t.tool ctx args) limit a') := by
  refine atOnce_onSuccess (h.keepsPace_errand a a' (r.isErrand_push _ _ a')) fun _ _ => ?_
  have haws := h.keepsPace_runIfCalled a a' ((t.dispatcherFor ctx).awsPush r)
    (fun halike => (Dispatcher.pushes_congr (d := t.dispatcherFor ctx) (h.credentials halike) r).1)
    fun files cwd c hc => by
      obtain ⟨here, there, rfl⟩ := Dispatcher.exists_push_of_awsPush hc
      exact r.isErrand_push here there a'
  refine atOnce_onSuccess haws fun _ _ => ?_
  have hprovider := h.keepsPace_runIfCalled a a' ((t.dispatcherFor ctx).providerPush r)
    (fun halike => (Dispatcher.pushes_congr (d := t.dispatcherFor ctx) (h.credentials halike) r).2)
    fun files cwd c hc => by
      obtain ⟨here, there, rfl⟩ := Dispatcher.exists_push_of_providerPush hc
      exact r.isErrand_push here there a'
  refine atOnce_onSuccess hprovider fun _ _ => ?_
  have hline : ((r.ssh "id -G").withEnv a'.env).commandLine =
      ((r.ssh "id -G").withEnv a.env).commandLine := by
    rw [a.commandLine_withEnv, a'.commandLine_withEnv]
  refine atOnce_onSuccess
    (h.atOnce_runChecked (.errand (r.isErrand_groups a')) (.line hline) none)
    fun listed listed' => ?_
  exact (atOnce_of_and (h.keepsPace_container args r limit a a')).of_imp fun _ _ hs =>
    ⟨⟨hs.1, hs.2.1.groups r a' rfl⟩, hs.2.2⟩

theorem keepsPace_dispatch (args : List String) (target : Target) (limit : Nat) :
    KeepsPace Alike Prints (t.dispatch recorder ctx args target limit)
      (t.dispatch e.watched ctx args target limit) := by
  refine atOnce_forget (F := fun _ _ => Mirrors Alike Prints) ?_ fun _ _ _ _ hs => hs
  refine atOnce_onSuccess (h.keepsPace_requireTools (mem_requiredTools target)) fun _ _ => ?_
  cases target with
  | here => exact h.keepsPace_runChecked (.here args) (.line rfl) _
  | remote host => exact h.keepsPace_during _ fun a a' => h.keepsPace_remoteSteps args _ _ a a'

theorem keepsPace_fetch (host : Network.Address) (there here : String) :
    KeepsPace Alike Prints ((t.dispatcherFor ctx).fetch recorder host there here)
      ((t.dispatcherFor ctx).fetch e.watched host there here) := by
  refine atOnce_onSuccess (h.keepsPace_requireTools (mem_requiredTools _)) fun _ _ => ?_
  refine h.keepsPace_during _ fun a a' => ?_
  exact atOnce_forget (h.keepsPace_errand a a' (Runner.isErrand_pull _ _ _ a')) fun _ _ _ _ hs => hs

/-! ## Steps -/

theorem keepsPace_makeDirs {dir : String} (hdir : dir ∈ branchDirs ctx) :
    KeepsPace Alike Prints (makeDirs recorder dir) (makeDirs e.watched dir) := by
  intro deadline now dry live _ hmirrors
  have hmade : live.files.makeDirs live.cwd dir = (.ok (), live.files) :=
    h.directories hmirrors.alike dir hdir
  refine ⟨.ok (), .ok (), dry, live, rfl, ?_, .ok hmirrors⟩
  rw [makeDirs, Executor.simulated_watched, h.live, if_neg Bool.false_ne_true, Host.runUnder_change,
    hmade]
  rfl

theorem keepsPace_checkout :
    KeepsPace Alike Prints (t.checkout recorder ctx) (t.checkout e.watched ctx) := by
  unfold checkout
  cases t.repository with
  | none => exact h.keepsPace_makeDirs List.mem_cons_self
  | some repository =>
    refine atOnce_onSuccess (h.keepsPace_requireTools (by decide)) fun _ _ => ?_
    refine atOnce_onSuccess (F := fun _ _ => Mirrors Alike Prints) ?_ fun _ _ => ?_
    · cases hparent : Path.parent? ctx.workdir with
      | none => exact atOnce_pure fun _ _ hs => .ok hs
      | some dir => exact h.keepsPace_makeDirs (by simp [branchDirs, hparent])
    · exact atOnce_forget (h.keepsPace_runChecked
        (.errand ⟨.inl (List.mem_of_elem_eq_true rfl), rfl⟩) (.line rfl) none) fun _ _ _ _ hs => hs

/-- The live run has got its address, and the dry run has made up the same. -/
theorem atOnce_address :
    AtOnce (fun dry live =>
        AddressFile.read (t.addressPath ctx) live.files live.cwd = .ok simulatedAddress ∧
          Mirrors Alike Prints dry live)
      ((if recorder.simulated then
        Host.change (AddressFile.write (t.addressPath ctx) simulatedAddress)
        else pure (.ok ())).onSuccess fun () => Host.look (AddressFile.read (t.addressPath ctx)))
      ((if e.watched.simulated then
          Host.change (AddressFile.write (t.addressPath ctx) simulatedAddress)
        else pure (.ok ())).onSuccess fun () => Host.look (AddressFile.read (t.addressPath ctx)))
      (Agree (fun address address' dry live => address = address' ∧ Mirrors Alike Prints dry live)
        (Mirrors Alike Prints)) := by
  rintro deadline now dry live - ⟨hread, hmirrors⟩
  obtain ⟨made, hwritten, hreadDry, halike⟩ := h.address hmirrors.alike hread
  refine ⟨.ok simulatedAddress, .ok simulatedAddress, { dry with files := made }, live, ?_, ?_,
    .ok ⟨rfl, halike, hmirrors.shows⟩⟩
  · have hsimulated : recorder.simulated = true := rfl
    rw [if_pos hsimulated, onSuccess, runUnder_bind, Host.runUnder_change, hwritten]
    exact congrArg (fun address => Ended.mk (.done address) now { dry with files := made }) hreadDry
  · rw [Executor.simulated_watched, h.live, if_neg Bool.false_ne_true]
    exact congrArg (fun address => Ended.mk (.done address) now live) hread

theorem atOnce_createRunner (limit : Nat) :
    AtOnce (Mirrors Alike Prints) (t.createRunner recorder ctx limit)
      (t.createRunner e.watched ctx limit)
      (Agree (fun address address' dry live => address = address' ∧ Mirrors Alike Prints dry live)
        (Mirrors Alike Prints)) := by
  unfold createRunner
  cases ctx.config.backend.provider? with
  | none => exact atOnce_pure fun _ _ hs => .error _ hs
  | some provider =>
    have hissued := h.atOnce_runChecked (.here (createArgs ctx provider)) (.line rfl) (some limit)
    refine atOnce_onSuccess (atOnce_forget
      (atOnce_onSuccess (h.keepsPace_requireTools (mem_requiredTools .here)) fun _ _ => hissued)
      fun _ _ _ _ hs => ⟨hs.2.1.runner provider rfl, hs.2.2⟩) fun _ _ => h.atOnce_address

theorem keepsPace_sendEmail (build : BuildResult) (limit : Nat) :
    KeepsPace Alike Prints (t.sendEmail recorder ctx build limit)
      (t.sendEmail e.watched ctx build limit) := by
  unfold sendEmail
  split
  · exact atOnce_pure fun _ _ hs => .ok hs
  · exact h.keepsPace_dispatch _ _ _

/-- The dry run copies results that need not be there. -/
theorem keepsPace_copyArtifacts (target : Target) :
    KeepsPace Alike Prints
      (t.copyArtifacts recorder ctx target (Path.join ctx.workdir artifactsDir))
      (t.copyArtifacts e.watched ctx target (Path.join ctx.workdir artifactsDir)) := by
  have hdirs := h.keepsPace_makeDirs (List.mem_cons_of_mem ctx.workdir List.mem_cons_self)
  refine atOnce_onSuccess hdirs fun _ _ => ?_
  cases target with
  | remote host => exact h.keepsPace_fetch host _ _
  | here =>
    refine atOnce_onSuccess (h.keepsPace_requireTools (by decide)) fun _ _ => ?_
    have hlook : AtOnce (Mirrors Alike Prints)
        (Host.look fun files cwd => files.isDir cwd (Path.join ctx.workdir resultsDir))
        (Host.look fun files cwd => files.isDir cwd (Path.join ctx.workdir resultsDir))
        fun _ there dry live => there = true ∧ Mirrors Alike Prints dry live := by
      refine atOnce_look fun _ live hs => ?_
      have hthere := h.results hs.alike
      exact ⟨hthere, hs⟩
    refine atOnce_bind hlook fun there there' => atOnce_of_and fun hthere => ?_
    have hdry : ¬ (!there && !recorder.simulated) = true := by cases there <;> decide
    have hlive : ¬ (!there' && !e.watched.simulated) = true := by
      rw [hthere]
      exact Bool.false_ne_true
    rw [if_neg hdry, if_neg hlive]
    exact atOnce_forget (h.keepsPace_runChecked (.errand ⟨.inl (List.mem_of_elem_eq_true rfl), rfl⟩)
      (.line rfl) none) fun _ _ _ _ hs => hs

end GoesWell

end ToolSteps

/-! ## Branches -/

/-- Ending at once, in the same way, is a likeness. -/
def Likeness.atOnce (ω : Type) : Likeness ω where
  Like _ E x y := AtOnce E x y fun a b s t => a = b ∧ E s t
  like_pure _ := atOnce_pure fun _ _ hs => ⟨rfl, hs⟩
  like_bind hx hf := atOnce_bind hx fun a _ => atOnce_of_and fun heq => heq ▸ hf a
  like_now _ now s t _ hs := ⟨now, now, s, t, rfl, rfl, rfl, hs⟩
  like_modify h _ _ s t _ hs := ⟨(), (), _, _, rfl, rfl, rfl, (h s t hs).1⟩
  like_get_bind h deadline now s t hd hs := h s t hs deadline now s t hd hs
  like_within millis h := by
    intro deadline now s t hd hs
    have hnow : meets now (some (nearer (now + millis) deadline)) :=
      meets_nearer.2 ⟨Nat.le_add_right _ _, hd⟩
    obtain ⟨a, b, s', t', hx, hy, heq, hs'⟩ := h _ now s t hnow hs
    rw [runUnder_within _ _ _ _ _ hd, runUnder_within _ _ _ _ _ hd, hx, hy]
    exact ⟨some a, some b, s', t', rfl, rfl, congrArg some heq, hs'⟩
  like_onPart hp hp' hpart hset h := by
    intro deadline now s t hd hs
    obtain ⟨a, b, s', t', hx, hy, heq, hs'⟩ := h deadline now _ _ hd (hpart s t hs)
    rw [runUnder_onPart hp, runUnder_onPart hp', hx, hy]
    exact ⟨a, b, _, _, rfl, rfl, heq, hset s t s' t' hs hs'⟩

namespace ToolSteps

variable {t : ToolSteps} {e : Executor τ} {Alike : FileTree → List String → Host τ → Prop}
  {Prints : String → Prop}

/-- Every step of the dry run mirrors that of the live run. -/
theorem GoesWell.steps {ctx : BranchContext} (h : t.GoesWell ctx e Alike Prints) :
    (Likeness.atOnce (Host (List String))).Steps (Mirrors Alike Prints) (t.collaborators recorder)
      (t.collaborators e.watched) ctx where
  checkout := h.keepsPace_checkout.answers
  createRunner limit := (h.atOnce_createRunner limit).same
  runTest target limit := (h.keepsPace_dispatch _ target limit).answers
  collectLogs target limit := (h.keepsPace_dispatch _ target limit).answers
  cleanResources target limit := (h.keepsPace_dispatch _ target limit).answers
  sendEmail build limit := (h.keepsPace_sendEmail build limit).answers
  copyArtifacts target := (h.keepsPace_copyArtifacts target).answers

/-- A dispatch that misses a tool is refused, and nothing is done for it. -/
theorem runUnder_dispatch_of_missing (t : ToolSteps) (e : Executor τ) (ctx : BranchContext)
    (args : List String) {target : Target} (limit : Nat) {err : RunError} {h : Host τ}
    (hmissing : checkTools h.files h.cwd t.dispatcher.searchDirs target.tools = .error err)
    (deadline : Option Nat) (now : Nat) :
    (t.dispatch e ctx args target limit).runUnder deadline now h =
        ⟨.done (.error err), now, h⟩ := by
  have hdispatch : ((t.dispatcherFor ctx).dispatch e (t.tool ctx args) target (some limit)).runUnder
      deadline now h = ⟨.done (.error err), now, h⟩ := by
    show ((requireTools t.dispatcher.searchDirs target.tools).onSuccess _).runUnder
      deadline now h = _
    rw [onSuccess, runUnder_bind, runUnder_requireTools, hmissing]
    rfl
  rw [dispatch, forget, onSuccess, runUnder_bind, hdispatch]
  rfl

/-- **A dry run shows what a live run would do.** If all goes well in the live run, the two end with
the same outcome, and the lines of the dry run show the commands of the live run one by one, each
but for the groups that its container is given. Where the runner lists none, the lines are those of
the live run. A dispatch whose tools are missing is refused in both for the same reason, and neither
issues anything for it. -/
theorem dryRun_shows_live (plan : BranchPlan) (policy : SelectorPolicy)
    (h : ∀ config, plan.params.resolve policy = .ok config →
      t.GoesWell (plan.context config) e Alike Prints)
    (limit : Option Nat) (dry : Host (List String)) (live : Host (Watched τ))
    (hlines : dry.tools = []) (hseen : live.tools.seen = [])
    (halike : Alike dry.files dry.cwd live.unwatched) :
    (∃ outcome dryEnd liveEnd,
      plan.runWithin (t.collaborators recorder) policy limit dry = ⟨.done outcome, 0, dryEnd⟩ ∧
      plan.runWithin (t.collaborators e.watched) policy limit live = ⟨.done outcome, 0, liveEnd⟩ ∧
      List.Forall₂ (Shows Prints) dryEnd.progress.world.tools liveEnd.progress.world.seenCommands ∧
      ((∀ printed, Prints printed → ∀ ch ∈ printed.toList, Text.isBlank ch) →
        dryEnd.progress.world.tools =
          liveEnd.progress.world.seenCommands.map CommandSpec.commandLine)) ∧
    ∀ config, plan.params.resolve policy = .ok config →
      ∀ (dry : Host (List String)) (live : Host (Watched τ)),
        Alike dry.files dry.cwd live.unwatched →
        ∀ target err,
          checkTools dry.files dry.cwd t.dispatcher.searchDirs target.tools = .error err →
          ∀ args limit deadline now,
            (t.dispatch recorder (plan.context config) args target limit).runUnder deadline now
                dry = ⟨.done (.error err), now, dry⟩ ∧
              (t.dispatch e.watched (plan.context config) args target limit).runUnder deadline now
                live = ⟨.done (.error err), now, live⟩ := by
  constructor
  · have hstart : List.Forall₂ (Shows Prints) dry.tools live.seenCommands := by
      rw [hlines, Host.seenCommands, hseen]
      exact .nil
    obtain ⟨outcome, _, dryEnd, liveEnd, hdry, hlive, rfl, hend⟩ :=
      Likeness.like_runBranch (K := Likeness.atOnce _)
        (fun config hconfig => (h config hconfig).steps.calls)
        limit none 0 { progress := { world := dry } } { progress := { world := live } } rfl
        ⟨⟨rfl, rfl, halike, hstart⟩, rfl, rfl, rfl, rfl⟩
    have hshows := hend.progress.world.shows
    refine ⟨outcome, dryEnd, liveEnd, hdry, hlive, hshows, fun hblank => ?_⟩
    have hsame : List.Forall₂ (fun line c => line = CommandSpec.commandLine c)
        dryEnd.progress.world.tools liveEnd.progress.world.seenCommands :=
      hshows.imp fun _ _ hshown => hshown.commandLine_eq hblank
    rwa [← List.forall₂_eq_eq_eq, List.forall₂_map_right_iff]
  · intro config hconfig dry live halike target err hmissing args limit deadline now
    have hsame : checkTools live.files live.cwd t.dispatcher.searchDirs target.tools = .error err :=
      ((h config hconfig).checkTools_eq halike (mem_requiredTools target)).symm.trans hmissing
    exact ⟨t.runUnder_dispatch_of_missing _ _ _ _ hmissing deadline now,
      t.runUnder_dispatch_of_missing _ _ _ _ hsame deadline now⟩

/-! ### A live run that writes an address -/

/-- The plan of a branch that has a runner, in a workspace at the root. -/
def runnerPlan : BranchPlan where
  axis := "a"
  params := RunParams.ofVariables [(Variable.backend, "aws"), (Variable.amiId, "ami-1")]
  workdir := "/ws"
  testId := "1"

/-- Its steps, with a key and a directory of credentials. -/
def runnerSteps : ToolSteps where
  dispatcher := Dispatcher.make
    { sshKeys := ["/key"], awsCredentialsDir := some "/aws", gceCredentialsFile := none,
      azureCredentialsDir := none }
    (EnvForwarder.ofVariables [] []) "/ws" ["/bin"]

/-- The files before the runner is created. -/
def unaddressedFiles : FileTree :=
  ⟨[("aws", .bareDir),
    ("bin", .dir (requiredTools.map fun tool => (tool, .file ByteArray.empty true))),
    ("ws", .dir [("artifacts", .bareDir), ("latest", .bareDir)])]⟩

/-- The files after it. -/
def addressedFiles : FileTree :=
  (AddressFile.write "/ws/sct_runner_ip" simulatedAddress unaddressedFiles []).2

/-- An agent tells how it is reached; nothing else is printed. -/
def addressingOutput (c : CommandSpec) : CommandOutput where
  stdout := if c.program = "ssh-agent" then "SSH_AUTH_SOCK=/agent; SSH_AGENT_PID=9;\n" else "\n"
  exitCode := some 0

theorem stdout_addressingOutput {c : CommandSpec} (h : c.program ≠ "ssh-agent") :
    (addressingOutput c).stdout = "\n" := if_neg h

/-- The address is written when the runner is created. -/
def addressingHost (c : CommandSpec) (h : Host Unit) : Host Unit :=
  if "create-runner-instance" ∈ c.argv then { h with files := addressedFiles } else h

/-- An executor that answers and writes so. -/
def addressing : Executor Unit where
  simulated := false
  run c _ := do
    Timed.modify (addressingHost c)
    pure (.ok (addressingOutput c))

/-- Files that are there at some time of the branch. -/
def IsRunnerFiles (files : FileTree) : Prop := files = unaddressedFiles ∨ files = addressedFiles

/-- The address may be there on either side alone. -/
def RunnerFilesAlike (files : FileTree) (cwd : List String) (h : Host Unit) : Prop :=
  (IsRunnerFiles files ∧ cwd = []) ∧ IsRunnerFiles h.files ∧ h.cwd = []

theorem RunnerFilesAlike.look_eq {files : FileTree} {cwd : List String} {h : Host Unit}
    (halike : RunnerFilesAlike files cwd h) (look : FileTree → List String → α)
    (hsame : look unaddressedFiles [] = look addressedFiles []) :
    look files cwd = look h.files h.cwd := by
  obtain ⟨⟨hfiles, rfl⟩, hlive, hcwd⟩ := halike
  rw [hcwd]
  rcases hfiles with rfl | rfl <;> rcases hlive with hlive | hlive <;> rw [hlive]
  · exact hsame
  · exact hsame.symm

/-! The paths of the branch, and what is there. -/

section Runner

variable (config : RunConfiguration)

theorem addressPath_runnerPlan :
    runnerSteps.addressPath (runnerPlan.context config) = "/ws/sct_runner_ip" := by
  show Path.join "/ws" "sct_runner_ip" = _
  decide

theorem branchDirs_runnerPlan :
    branchDirs (runnerPlan.context config) = ["/ws", "/ws/artifacts", "/"] := by
  show "/ws" :: Path.join "/ws" "artifacts" :: (Path.parent? "/ws").toList = _
  decide +kernel

theorem read_addressedFiles :
    AddressFile.read "/ws/sct_runner_ip" addressedFiles [] = .ok simulatedAddress := by
  rfl

theorem write_runnerFiles {files : FileTree} (h : IsRunnerFiles files) :
    AddressFile.write "/ws/sct_runner_ip" simulatedAddress files [] = (.ok (), addressedFiles) := by
  rcases h with rfl | rfl <;> rfl

theorem makeDirs_runnerFiles {files : FileTree} (h : IsRunnerFiles files) {dir : String}
    (hdir : dir ∈ ["/ws", "/ws/artifacts", "/"]) : files.makeDirs [] dir = (.ok (), files) := by
  simp only [List.mem_cons, List.not_mem_nil, or_false] at hdir
  rcases h with rfl | rfl <;> rcases hdir with rfl | rfl | rfl <;> rfl

theorem isDir_runnerFiles {files : FileTree} (h : IsRunnerFiles files) :
    files.isDir [] (Path.join "/ws" resultsDir) = true := by
  rcases h with rfl | rfl <;> decide +kernel

theorem mem_argv_createRunner (ctx : BranchContext) (provider : CloudProvider) :
    "create-runner-instance" ∈ ((runnerSteps.dispatcherFor ctx).localCommand
      (runnerSteps.tool ctx (createArgs ctx provider))).argv := by
  have htool :
      "create-runner-instance" ∈ (runnerSteps.tool ctx (createArgs ctx provider)).argv := by
    rw [tool, CommandSpec.argv_withEnv]
    exact List.mem_cons_of_mem _ List.mem_cons_self
  show _ ∈ ((runnerSteps.dispatcherFor ctx).invocation
    (runnerSteps.tool ctx (createArgs ctx provider)) _).toCommand.argv
  rw [ContainerInvocation.argv_toCommand]
  exact List.mem_cons_of_mem _ (List.mem_append_right _ htool)

theorem obliges_addressing (c : CommandSpec) {h : Host Unit} (hcwd : h.cwd = []) :
    runnerSteps.Obliges (runnerPlan.context config) (· = "\n") c (addressingOutput c)
      (addressingHost c h) where
  succeeds := rfl
  agent := by
    rintro rfl
    exact ⟨⟨"/agent", "9"⟩, rfl⟩
  groups := by
    rintro r a rfl
    have hssh : ((r.ssh "id -G").withEnv a.env).program ≠ "ssh-agent" := by
      rw [CommandSpec.program_withEnv]
      exact (by decide : "ssh" ≠ "ssh-agent")
    exact stdout_addressingOutput hssh
  runner := by
    rintro provider rfl
    rw [addressPath_runnerPlan, addressingHost, if_pos (mem_argv_createRunner _ provider), hcwd]
    exact read_addressedFiles

theorem goesWell_addressing :
    runnerSteps.GoesWell (runnerPlan.context config) addressing RunnerFilesAlike (· = "\n") where
  live := rfl
  run {c limit deadline now files cwd h} _ _ halike := by
    refine ⟨_, _, rfl, obliges_addressing config c halike.2.2, halike.1, ?_⟩
    unfold addressingHost
    split
    · exact ⟨.inr rfl, halike.2.2⟩
    · exact halike.2
  tools halike tool htool := by
    have hsame : ∀ tool ∈ requiredTools, isInstalled unaddressedFiles [] ["/bin"] tool =
        isInstalled addressedFiles [] ["/bin"] tool := by
      decide +kernel
    exact halike.look_eq (isInstalled · · ["/bin"] tool) (hsame tool htool)
  credentials halike path hpath := by
    have hsame : ∀ path ∈ [some "/aws", none, none],
        Dispatcher.present unaddressedFiles [] path =
          Dispatcher.present addressedFiles [] path := by
      decide +kernel
    exact halike.look_eq (Dispatcher.present · · path) (hsame path hpath)
  directories {files cwd h} halike dir hdir := by
    rw [branchDirs_runnerPlan] at hdir
    rw [halike.2.2]
    exact makeDirs_runnerFiles halike.2.1 hdir
  results {files cwd h} halike := by
    rw [halike.2.2]
    exact isDir_runnerFiles halike.2.1
  address {files cwd h} halike _ := by
    obtain ⟨⟨hfiles, rfl⟩, hlive⟩ := halike
    rw [addressPath_runnerPlan]
    exact ⟨addressedFiles, write_runnerFiles hfiles, read_addressedFiles, ⟨.inr rfl, rfl⟩, hlive⟩

end Runner

theorem dryRun_shows_live_addressing :
    (runnerPlan.params.resolve .firstMatch).toOption.isSome = true ∧
    ∃ outcome dryEnd liveEnd,
      runnerPlan.runWithin (runnerSteps.collaborators recorder) .firstMatch none
          { files := unaddressedFiles, tools := [] } = ⟨.done outcome, 0, dryEnd⟩ ∧
      runnerPlan.runWithin (runnerSteps.collaborators addressing.watched) .firstMatch none
          { files := unaddressedFiles, tools := { tools := () } } = ⟨.done outcome, 0, liveEnd⟩ ∧
      dryEnd.progress.world.tools.length = 26 ∧
      dryEnd.progress.world.tools =
        liveEnd.progress.world.seenCommands.map CommandSpec.commandLine := by
  have hlength : (runnerPlan.runWithin (runnerSteps.collaborators recorder) .firstMatch none
      { files := unaddressedFiles, tools := [] }).state.progress.world.tools.length = 26 := by
    decide +kernel
  obtain ⟨⟨outcome, dryEnd, liveEnd, hdry, hlive, -, hlines⟩, -⟩ :=
    dryRun_shows_live runnerPlan .firstMatch (fun config _ => goesWell_addressing config) none
      { files := unaddressedFiles, tools := [] }
      { files := unaddressedFiles, tools := { tools := () } }
      rfl rfl ⟨⟨.inl rfl, rfl⟩, .inl rfl, rfl⟩
  rw [hdry] at hlength
  refine ⟨by decide +kernel, outcome, dryEnd, liveEnd, hdry, hlive, hlength, hlines ?_⟩
  rintro _ rfl
  show ∀ ch ∈ ['\n'], Text.isBlank ch = true
  exact List.forall_mem_singleton.2 rfl

end ToolSteps

end Stagehand
