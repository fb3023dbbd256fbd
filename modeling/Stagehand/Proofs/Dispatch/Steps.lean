import Stagehand.Dispatch.Collaborators
import Stagehand.Proofs.Branch.Likeness
import Stagehand.Proofs.Command.Watching
import Stagehand.Proofs.Remote.Container

/-!
# What every step of the tool respects

The steps of a branch only issue commands of a few kinds (`ToolSteps.Issues`): containers of the
tool with the variables of the branch, and errands that move files, ask for groups and keep keys.
Two executors that run these alike make branches that run alike.

Main result: `ToolSteps.runAs_collaborators`. It is used with an executor that is watched and is run
beside itself: nothing is seen but commands of these kinds (`Executor.runAs_hasSeenOnly`).
-/

namespace Stagehand

open Timed

variable {τ τ' α β : Type} {E : Host τ → Host τ' → Prop}

/-! ## Building steps -/

theorem runsAs_onSuccess {σ σ' : Type} {E : σ → σ' → Prop} {x : Timed σ (RunResult α)}
    {y : Timed σ' (RunResult α)} {f : α → Timed σ (RunResult β)} {g : α → Timed σ' (RunResult β)}
    (hx : RunsAs E x y) (hf : ∀ a, RunsAs E (f a) (g a)) :
    RunsAs E (x.onSuccess f) (y.onSuccess g) := by
  refine runsAs_bind hx fun result => ?_
  cases result with
  | ok a => exact hf a
  | error e => exact runsAs_pure _

theorem runsAs_forget {σ σ' : Type} {E : σ → σ' → Prop} {x : Timed σ (RunResult α)}
    {y : Timed σ' (RunResult α)} (hx : RunsAs E x y) : RunsAs E x.forget y.forget :=
  runsAs_onSuccess hx fun _ => runsAs_pure _

/-- What is made of a look at the files runs from there. -/
theorem Host.runUnder_look_bind (find : FileTree → List String → α) (f : α → Timed (Host τ) β)
    (deadline : Option Nat) (now : Nat) (h : Host τ) :
    (Host.look find >>= f).runUnder deadline now h =
      (f (find h.files h.cwd)).runUnder deadline now h := rfl

theorem Host.runUnder_change (f : FileTree → List String → Except FileError Unit × FileTree)
    (deadline : Option Nat) (now : Nat) (h : Host τ) :
    (Host.change f).runUnder deadline now h =
      ⟨.done ((f h.files h.cwd).1.mapError RunError.file), now,
        { h with files := (f h.files h.cwd).2 }⟩ := rfl

theorem runUnder_requireTools (dirs tools : List String) (deadline : Option Nat) (now : Nat)
    (h : Host τ) :
    (requireTools dirs tools).runUnder deadline now h =
      ⟨.done (checkTools h.files h.cwd dirs tools), now, h⟩ := rfl

/-- Two executors, on hosts that `E` relates, run the commands that `P` holds of alike; the hosts
have the same files. -/
structure Executor.RunAs (P : CommandSpec → Prop) (E : Host τ → Host τ' → Prop) (e : Executor τ)
    (e' : Executor τ') : Prop where
  simulated : e.simulated = e'.simulated
  run : ∀ {c}, P c → ∀ limit, RunsAs E (e.run c limit) (e'.run c limit)
  files : ∀ {h h'}, E h h' → h.files = h'.files
  cwd : ∀ {h h'}, E h h' → h.cwd = h'.cwd
  setFiles : ∀ {h h'} (files : FileTree), E h h' → E { h with files } { h' with files }
  leave : ∀ {c}, P c → ∀ {h h'}, E h h' → E (h.leave c) (h'.leave c)

namespace Executor.RunAs

variable {P : CommandSpec → Prop} {e : Executor τ} {e' : Executor τ'} (h : e.RunAs P E e')
include h

theorem runChecked {c : CommandSpec} (hc : P c) (limit : Option Nat) :
    RunsAs E (e.runChecked c limit) (e'.runChecked c limit) := by
  refine runsAs_bind (h.run hc limit) fun answer => ?_
  cases answer <;> exact runsAs_pure _

theorem look (f : FileTree → List String → α) : RunsAs E (Host.look f) (Host.look f) := by
  intro deadline now w w' _ hw
  have hfound : f w.files w.cwd = f w'.files w'.cwd := by rw [h.files hw, h.cwd hw]
  exact .of_eq (congrArg Ending.done hfound) rfl hw

theorem change (f : FileTree → List String → Except FileError Unit × FileTree) :
    RunsAs E (Host.change f) (Host.change f) := by
  intro deadline now w w' _ hw
  have hsame : f w.files w.cwd = f w'.files w'.cwd := by rw [h.files hw, h.cwd hw]
  rw [Host.runUnder_change, Host.runUnder_change, hsame]
  exact .intro _ _ (h.setFiles _ hw)

theorem requireTools (dirs tools : List String) :
    RunsAs E (requireTools dirs tools) (requireTools dirs tools) :=
  h.look _

/-! ## Key agents -/

theorem holding {a : KeyAgent} (hkill : P a.kill) {x : Timed (Host τ) α} {y : Timed (Host τ') α}
    (hx : RunsAs E x y) : RunsAs E (a.holding x) (a.holding y) :=
  runsAs_whenAbandoned (fun _ _ hw => h.leave hkill hw) hx

theorem stop {a : KeyAgent} (hkill : P a.kill) : RunsAs E (a.stop e) (a.stop e') :=
  runsAs_bind (h.runChecked hkill none) fun _ => runsAs_pure _

theorem loadKeys {a : KeyAgent} (hkill : P a.kill) (hadd : ∀ key, P (a.addKey key))
    (keys : List String) : RunsAs E (a.loadKeys e keys) (a.loadKeys e' keys) := by
  induction keys with
  | nil => exact runsAs_pure _
  | cons key rest ih =>
    refine runsAs_bind (h.holding hkill (h.runChecked (hadd key) none)) fun added => ?_
    cases added with
    | ok => exact ih
    | error => exact runsAs_bind (h.stop hkill) fun _ => runsAs_pure _

/-- Whatever is done with an agent runs alike if the agent is started, used and killed alike. -/
theorem during (hstart : P KeyAgent.startCommand) (hkill : ∀ a : KeyAgent, P a.kill)
    (hadd : ∀ (a : KeyAgent) key, P (a.addKey key)) (keys : List String)
    {x : KeyAgent → Timed (Host τ) (RunResult α)} {y : KeyAgent → Timed (Host τ') (RunResult α)}
    (hx : ∀ a, RunsAs E (x a) (y a)) :
    RunsAs E (KeyAgent.during e keys x) (KeyAgent.during e' keys y) := by
  refine runsAs_onSuccess (runsAs_onSuccess (h.runChecked hstart none) fun output => ?_) fun a => ?_
  · rw [h.simulated]
    split
    · exact h.loadKeys (hkill _) (hadd _) keys
    · exact runsAs_pure _
  · refine runsAs_bind (h.holding (hkill a) (hx a)) fun result => ?_
    exact runsAs_bind (h.stop (hkill a)) fun _ => runsAs_pure _

theorem runIfCalled {a : KeyAgent} {find : FileTree → List String → Option CommandSpec}
    (hfind : ∀ files cwd, ∀ c ∈ find files cwd, P (c.withEnv a.env)) :
    RunsAs E (Dispatcher.runIfCalled e a find) (Dispatcher.runIfCalled e' a find) := by
  intro deadline now w w' hd hw
  rw [Dispatcher.runIfCalled, Dispatcher.runIfCalled, Host.runUnder_look_bind,
    Host.runUnder_look_bind, ← h.files hw, ← h.cwd hw]
  cases hc : find w.files w.cwd with
  | none => exact runsAs_pure _ deadline now w w' hd hw
  | some c => exact runsAs_forget (h.runChecked (hfind _ _ c hc) none) deadline now w w' hd hw

end Executor.RunAs

/-! ## The commands of a branch -/

/-- Programs that are only run to move files and to keep keys. -/
def errandPrograms : List String := ["git", "cp", "rsync", "ssh-agent", "ssh-add"]

/-- A command that runs no container: it moves files, keeps keys, or asks a runner for groups. It is
run where the tool itself runs. -/
structure CommandSpec.IsErrand (c : CommandSpec) : Prop where
  kind : c.program ∈ errandPrograms ∨
    ∃ (r : Runner) (a : KeyAgent), c = (r.ssh "id -G").withEnv a.env
  workdir : c.workdir = none

namespace CommandSpec

theorem workdir_setEnv (c : CommandSpec) (name value : String) :
    (c.setEnv name value).workdir = c.workdir := by
  unfold setEnv secret
  split
  · split <;> rfl
  · rfl

theorem program_withEnv (c : CommandSpec) (vars : List (String × String)) :
    (c.withEnv vars).program = c.program :=
  (List.cons.inj (argv_withEnv c vars)).1

theorem workdir_withEnv (c : CommandSpec) (vars : List (String × String)) :
    (c.withEnv vars).workdir = c.workdir := by
  induction vars generalizing c with
  | nil => rfl
  | cons v vars ih => simpa [withEnv, workdir_setEnv] using ih (c.setEnv v.1 v.2)

theorem isErrand_withEnv {c : CommandSpec} (h : c.program ∈ errandPrograms)
    (hdir : c.workdir = none) (vars : List (String × String)) : (c.withEnv vars).IsErrand :=
  ⟨.inl (by rwa [program_withEnv]), by rwa [workdir_withEnv]⟩

end CommandSpec

theorem KeyAgent.isErrand_kill (a : KeyAgent) : a.kill.IsErrand :=
  CommandSpec.isErrand_withEnv (by decide) rfl _

theorem KeyAgent.isErrand_addKey (a : KeyAgent) (key : String) : (a.addKey key).IsErrand :=
  CommandSpec.isErrand_withEnv (List.mem_of_elem_eq_true rfl) rfl _

theorem Runner.isErrand_push (r : Runner) (here there : String) (a : KeyAgent) :
    ((r.push here there).withEnv a.env).IsErrand :=
  CommandSpec.isErrand_withEnv (List.mem_of_elem_eq_true rfl) rfl _

theorem Runner.isErrand_pull (r : Runner) (there here : String) (a : KeyAgent) :
    ((r.pull there here).withEnv a.env).IsErrand :=
  CommandSpec.isErrand_withEnv (List.mem_of_elem_eq_true rfl) rfl _

theorem Runner.isErrand_groups (r : Runner) (a : KeyAgent) :
    ((r.ssh "id -G").withEnv a.env).IsErrand :=
  ⟨.inr ⟨r, a, rfl⟩, by rw [CommandSpec.workdir_withEnv]; rfl⟩

namespace Dispatcher

/-! ## Dispatching -/

theorem exists_push_of_awsPush {d : Dispatcher} {r : Runner} {files : FileTree} {cwd : List String}
    {c : CommandSpec} (h : c ∈ d.awsPush r files cwd) : ∃ here there, c = r.push here there := by
  unfold awsPush at h
  split at h
  · cases h
  · obtain ⟨dir, -, rfl⟩ := Option.map_eq_some_iff.1 h
    exact ⟨_, _, rfl⟩

theorem exists_push_of_providerPush {d : Dispatcher} {r : Runner} {files : FileTree}
    {cwd : List String} {c : CommandSpec} (h : c ∈ d.providerPush r files cwd) :
    ∃ here there, c = r.push here there := by
  unfold providerPush at h
  split at h
  · obtain ⟨file, -, rfl⟩ := Option.map_eq_some_iff.1 h
    exact ⟨_, _, rfl⟩
  · obtain ⟨dir, -, rfl⟩ := Option.map_eq_some_iff.1 h
    exact ⟨_, _, rfl⟩
  · cases h
  · cases h

variable {P : CommandSpec → Prop} {e : Executor τ} {e' : Executor τ'} (h : e.RunAs P E e')
  (herrand : ∀ c : CommandSpec, c.IsErrand → P c) (d : Dispatcher)
include h herrand

theorem runsAs_during (keys : List String) {x : KeyAgent → Timed (Host τ) (RunResult α)}
    {y : KeyAgent → Timed (Host τ') (RunResult α)} (hx : ∀ a, RunsAs E (x a) (y a)) :
    RunsAs E (KeyAgent.during e keys x) (KeyAgent.during e' keys y) :=
  h.during (herrand _ ⟨.inl (by decide), rfl⟩) (fun a => herrand _ a.isErrand_kill)
    (fun a key => herrand _ (a.isErrand_addKey key)) keys hx

theorem runsAs_awsPush (r : Runner) (a : KeyAgent) :
    RunsAs E (runIfCalled e a (d.awsPush r)) (runIfCalled e' a (d.awsPush r)) := by
  refine h.runIfCalled fun files cwd c hc => herrand _ ?_
  obtain ⟨here, there, rfl⟩ := exists_push_of_awsPush hc
  exact r.isErrand_push here there a

theorem runsAs_providerPush (r : Runner) (a : KeyAgent) :
    RunsAs E (runIfCalled e a (d.providerPush r)) (runIfCalled e' a (d.providerPush r)) := by
  refine h.runIfCalled fun files cwd c hc => herrand _ ?_
  obtain ⟨here, there, rfl⟩ := exists_push_of_providerPush hc
  exact r.isErrand_push here there a

/-- A command runs alike if its containers do. -/
theorem runsAs_dispatch {c : CommandSpec} (hhere : P (d.localCommand c))
    (hthere : ∀ (r : Runner) (groupIds : List String) (a : KeyAgent),
      P ((r.container { d.invocation c r.workspace with groupIds }).withEnv a.env))
    (target : Target) (limit : Option Nat) :
    RunsAs E (d.dispatch e c target limit) (d.dispatch e' c target limit) := by
  refine runsAs_onSuccess (h.requireTools _ _) fun _ => ?_
  cases target with
  | here => exact h.runChecked hhere _
  | remote host =>
    refine runsAs_during h herrand _ fun a => ?_
    have hpush := herrand _ ((d.runner host).isErrand_push (Path.asDirectory d.workspace)
      (d.runner host).workspace a)
    refine runsAs_onSuccess (h.runChecked hpush none) fun _ => ?_
    refine runsAs_onSuccess (runsAs_awsPush h herrand d _ a) fun _ => ?_
    refine runsAs_onSuccess (runsAs_providerPush h herrand d _ a) fun _ => ?_
    have hgroups := herrand _ ((d.runner host).isErrand_groups a)
    refine runsAs_onSuccess (h.runChecked hgroups none) fun listed => ?_
    exact h.runChecked (hthere _ (groupIds listed.stdout) a) limit

theorem runsAs_fetch (host : Network.Address) (there here : String) :
    RunsAs E (d.fetch e host there here) (d.fetch e' host there here) := by
  refine runsAs_onSuccess (h.requireTools _ _) fun _ => runsAs_during h herrand _ fun a => ?_
  exact runsAs_forget (h.runChecked (herrand _ ((d.runner host).isErrand_pull _ _ a)) none)

end Dispatcher

/-! ## Steps -/

namespace ToolSteps

variable {t : ToolSteps} {ctx : BranchContext}

/-- What the steps of a branch issue. -/
inductive Issues (t : ToolSteps) (ctx : BranchContext) : CommandSpec → Prop where
  | errand {c : CommandSpec} : c.IsErrand → Issues t ctx c
  /-- A command of the tool, in a container here. -/
  | here (args : List String) :
      Issues t ctx ((t.dispatcherFor ctx).localCommand (t.tool ctx args))
  /-- A command of the tool, in a container on a runner. -/
  | there (args : List String) (r : Runner) (groupIds : List String) (a : KeyAgent) :
      Issues t ctx ((r.container
        { (t.dispatcherFor ctx).invocation (t.tool ctx args) r.workspace with groupIds }).withEnv
          a.env)

variable {e : Executor τ} {e' : Executor τ'} (h : e.RunAs (t.Issues ctx) E e')
include h

theorem runsAs_dispatch (args : List String) (target : Target) (limit : Nat) :
    RunsAs E (t.dispatch e ctx args target limit) (t.dispatch e' ctx args target limit) :=
  runsAs_forget (Dispatcher.runsAs_dispatch h (fun _ => .errand) _ (.here args) (.there args)
    target _)

theorem runsAs_makeDirs (path : String) : RunsAs E (makeDirs e path) (makeDirs e' path) := by
  unfold makeDirs
  rw [h.simulated]
  split
  · exact runsAs_pure _
  · exact h.change _

theorem runsAs_checkout : RunsAs E (t.checkout e ctx) (t.checkout e' ctx) := by
  unfold checkout
  split
  · exact runsAs_makeDirs h _
  · refine runsAs_onSuccess (h.requireTools _ _) fun _ => runsAs_onSuccess ?_ fun _ => ?_
    · split
      · exact runsAs_makeDirs h _
      · exact runsAs_pure _
    · exact runsAs_forget (h.runChecked (.errand ⟨.inl (List.mem_of_elem_eq_true rfl), rfl⟩) none)

theorem runsAs_createRunner (limit : Nat) :
    RunsAs E (t.createRunner e ctx limit) (t.createRunner e' ctx limit) := by
  unfold createRunner
  split
  · exact runsAs_pure _
  · refine runsAs_onSuccess (runsAs_dispatch h _ _ _) fun _ => runsAs_onSuccess ?_ fun _ => h.look _
    rw [h.simulated]
    split
    · exact h.change _
    · exact runsAs_pure _

theorem runsAs_sendEmail (build : BuildResult) (limit : Nat) :
    RunsAs E (t.sendEmail e ctx build limit) (t.sendEmail e' ctx build limit) := by
  unfold sendEmail
  split
  · exact runsAs_pure _
  · exact runsAs_dispatch h _ _ _

theorem runsAs_copyArtifacts (target : Target) (destination : String) :
    RunsAs E (t.copyArtifacts e ctx target destination)
      (t.copyArtifacts e' ctx target destination) := by
  refine runsAs_onSuccess (runsAs_makeDirs h _) fun _ => ?_
  cases target with
  | remote host => exact Dispatcher.runsAs_fetch h (fun _ => .errand) _ _ _ _
  | here =>
    refine runsAs_onSuccess (h.requireTools _ _) fun _ => runsAs_bind (h.look _) fun found => ?_
    rw [h.simulated]
    split
    · exact runsAs_pure _
    · exact runsAs_forget (h.runChecked (.errand ⟨.inl (List.mem_of_elem_eq_true rfl), rfl⟩) none)

/-- **Executors that run the commands of a branch alike make its steps run alike.** -/
theorem runAs_collaborators :
    Collaborators.RunAs E (t.collaborators e) (t.collaborators e') ctx where
  checkout := runsAs_checkout h
  createRunner _ limit := runsAs_bounded _ _ (runsAs_createRunner h limit)
  runTest _ target limit := runsAs_bounded _ _ (runsAs_dispatch h _ target limit)
  collectLogs _ target limit := runsAs_bounded _ _ (runsAs_dispatch h _ target limit)
  cleanResources _ target limit := runsAs_bounded _ _ (runsAs_dispatch h _ target limit)
  sendEmail _ build limit := runsAs_bounded _ _ (runsAs_sendEmail h build limit)
  copyArtifacts target := runsAs_copyArtifacts h target _

end ToolSteps

/-! ## Watched executors -/

namespace Executor

/-- On an executor that is watched, nothing is seen but what may be issued. -/
theorem runAs_hasSeenOnly (P : CommandSpec → Prop) (e : Executor τ) :
    e.watched.RunAs P (HasSeenOnly P) e.watched where
  simulated := rfl
  run hc limit := e.runsAs_hasSeenOnly hc limit
  files := fun ⟨heq, _⟩ => heq ▸ rfl
  cwd := fun ⟨heq, _⟩ => heq ▸ rfl
  setFiles := fun _ ⟨heq, hseen⟩ => ⟨heq ▸ rfl, hseen⟩
  leave := fun _ _ _ ⟨heq, hseen⟩ => ⟨heq ▸ rfl, hseen⟩

end Executor

end Stagehand
