import Stagehand.Proofs.Config.Blanks
import Stagehand.Proofs.Dispatch.AddressFile
import Stagehand.Proofs.Dispatch.DryRun

/-!
# Which address a created runner is given

The step that creates a runner issues one command. When that has succeeded, the step reads the
address file of the workspace, whoever wrote it: nothing puts an older file away before the command,
and nothing asks whether the command has written one. So an address that an earlier run has left
there, or a dry run has made up, is taken for the address of the new runner.

* `ToolSteps.Creates`: the command succeeds, and leaves this host behind.
* `ToolSteps.runUnder_createRunner_of_live`: how the step runs, from how its command runs.

**Theorem (`createRunner_answers_recorded`).** A live run answers an address exactly if the command
succeeds and the file tells that address afterwards. If the command leaves the file as it was, the
answer is what was to be read before: an error of the configuration exactly if that was nothing. An
address that was not to be read before is only answered if the command has written the file.
-/

namespace Stagehand

open Timed DryRun

variable {τ : Type}

theorem AddressFile.read_congr {path : String} {files files' : FileTree} {cwd cwd' : List String}
    (h : files.readBytes cwd path = files'.readBytes cwd' path) :
    read path files cwd = read path files' cwd' := by
  unfold read FileTree.readText
  rw [h]

namespace ToolSteps

/-! ## The step -/

def createCommand (t : ToolSteps) (ctx : BranchContext) (provider : CloudProvider) : CommandSpec :=
  (t.dispatcherFor ctx).localCommand (t.tool ctx (createArgs ctx provider))

/-- The bytes of the address file of a branch, or why there are none. -/
def addressBytes (t : ToolSteps) (ctx : BranchContext) (h : Host τ) : Except FileError ByteArray :=
  h.files.readBytes h.cwd (t.addressPath ctx)

/-- The address that is recorded in the workspace of a branch. -/
def recordedAddress (t : ToolSteps) (ctx : BranchContext) (h : Host τ) :
    RunResult Network.Address :=
  AddressFile.read (t.addressPath ctx) h.files h.cwd

variable {t : ToolSteps} {e : Executor τ} {ctx : BranchContext}
  {provider : CloudProvider} {limit : Nat}
  {deadline : Option Nat} {now time : Nat} {before after : Host τ} {address : Network.Address}

theorem recordedAddress_congr (h : t.addressBytes ctx after = t.addressBytes ctx before) :
    t.recordedAddress ctx after = t.recordedAddress ctx before := AddressFile.read_congr h

/-- A dispatch whose tools are there issues its command. -/
theorem runUnder_dispatch_here {args : List String}
    (htools : checkTools before.files before.cwd t.dispatcher.searchDirs
      Target.here.tools = .ok ()) :
    (t.dispatch e ctx args .here limit).runUnder deadline now before =
      (e.runChecked ((t.dispatcherFor ctx).localCommand (t.tool ctx args))
        (some limit)).forget.runUnder
        deadline now before := by
  have hdispatch : ((t.dispatcherFor ctx).dispatch e (t.tool ctx args) .here (some limit)).runUnder
      deadline now before =
        (e.runChecked ((t.dispatcherFor ctx).localCommand (t.tool ctx args)) (some limit)).runUnder
          deadline now before := by
    show ((requireTools t.dispatcher.searchDirs Target.here.tools).onSuccess _).runUnder _ _ _ = _
    rw [onSuccess, runUnder_bind, runUnder_requireTools, htools]
  rw [dispatch, forget, forget, onSuccess, onSuccess, runUnder_bind, runUnder_bind, hdispatch]

/-- **How a live run creates a runner**, from how its command runs. -/
theorem runUnder_createRunner_of_live (hlive : e.simulated = false)
    (hprovider : ctx.config.backend.provider? = some provider)
    (htools : checkTools before.files before.cwd t.dispatcher.searchDirs
      Target.here.tools = .ok ()) :
    (t.createRunner e ctx limit).runUnder deadline now before =
      match (e.run (t.createCommand ctx provider) (some limit)).runUnder deadline now before with
      | ⟨.done (.ok output), time, after⟩ =>
        ⟨.done
          ((output.check (t.createCommand ctx provider)).bind fun _ => t.recordedAddress ctx after),
          time, after⟩
      | ⟨.done (.error err), time, after⟩ => ⟨.done (.error err), time, after⟩
      | ⟨.cut, time, after⟩ => ⟨.cut, time, after⟩
      | ⟨.broken, time, after⟩ => ⟨.broken, time, after⟩ := by
  unfold createRunner
  rw [hprovider]
  simp only [hlive, Bool.false_eq_true, if_false]
  rw [onSuccess, runUnder_bind, runUnder_dispatch_here htools, forget, onSuccess, runUnder_bind,
    Executor.runChecked, runUnder_bind, ← createCommand]
  rcases (e.run (t.createCommand ctx provider) (some limit)).runUnder deadline now before with
    ⟨(err | output) | _ | _, time, after⟩
  · rfl
  · dsimp only
    cases output.check (t.createCommand ctx provider) <;> rfl
  · rfl
  · rfl

/-- The step issues this command and no other, whatever becomes of it. -/
theorem seenCommands_createRunner {before : Host (Watched τ)} (hlive : e.simulated = false)
    (hprovider : ctx.config.backend.provider? = some provider)
    (htools : checkTools before.files before.cwd t.dispatcher.searchDirs
      Target.here.tools = .ok ()) :
    ((t.createRunner e.watched ctx limit).runUnder deadline now before).state.seenCommands =
      before.seenCommands ++ [t.createCommand ctx provider] := by
  have hseen := e.seenCommands_run (t.createCommand ctx provider) (some limit) deadline now before
  rw [runUnder_createRunner_of_live (e.simulated_watched.trans hlive) hprovider htools]
  -- After its command the step only reads: the host stays as the command has left it.
  revert hseen
  rcases (e.watched.run (t.createCommand ctx provider) (some limit)).runUnder deadline
    now before with
    ⟨(err | output) | _ | _, time, after⟩ <;> exact id

/-- The tools are there, and the command that creates the runner succeeds: issued on one host, it
leaves another one. -/
inductive Creates (t : ToolSteps) (e : Executor τ) (ctx : BranchContext) (limit : Nat)
    (deadline : Option Nat) (now : Nat) (before : Host τ) (time : Nat) (after : Host τ) : Prop where
  | succeeds {provider : CloudProvider} {output : CommandOutput}
      (provided : ctx.config.backend.provider? = some provider)
      (tools : checkTools before.files before.cwd t.dispatcher.searchDirs
        Target.here.tools = .ok ())
      (run : (e.run (t.createCommand ctx provider) (some limit)).runUnder deadline now before =
        ⟨.done (.ok output), time, after⟩)
      (success : output.success = true) : Creates t e ctx limit deadline now before time after

theorem Creates.runUnder_eq (h : t.Creates e ctx limit deadline now before time after)
    (hlive : e.simulated = false) :
    (t.createRunner e ctx limit).runUnder deadline now before =
      ⟨.done (t.recordedAddress ctx after), time, after⟩ := by
  obtain ⟨hprovider, htools, hrun, hsuccess⟩ := h
  rw [runUnder_createRunner_of_live hlive hprovider htools, hrun]
  simp only [CommandOutput.check, hsuccess, if_true, Except.bind]

/-- An address is only answered when the runner is created. -/
theorem creates_of_runUnder_eq (hlive : e.simulated = false)
    (h : (t.createRunner e ctx limit).runUnder deadline now before =
      ⟨.done (.ok address), time, after⟩) :
    t.Creates e ctx limit deadline now before time after := by
  -- Without a provider or a tool the step is refused, so that no address is answered.
  cases hprovider : ctx.config.backend.provider? with
  | none =>
    unfold createRunner at h
    rw [hprovider] at h
    cases h
  | some provider =>
    cases htools : checkTools before.files before.cwd t.dispatcher.searchDirs Target.here.tools with
    | error err =>
      unfold createRunner at h
      rw [hprovider] at h
      simp only [onSuccess, runUnder_bind, t.runUnder_dispatch_of_missing e ctx _ limit htools] at h
      cases h
    | ok =>
      rw [runUnder_createRunner_of_live hlive hprovider htools] at h
      split at h
      · next output time' after' hrun =>
        obtain ⟨hanswer, rfl, rfl⟩ := Ended.mk.inj h
        refine .succeeds hprovider htools hrun ?_
        by_contra hfailed
        rw [CommandOutput.check, if_neg hfailed] at hanswer
        cases hanswer
      · cases h
      · cases h
      · cases h

/-- **An address is answered exactly if the runner is created and the file tells the
address then.** -/
theorem runUnder_createRunner_eq_ok_iff (hlive : e.simulated = false) :
    (t.createRunner e ctx limit).runUnder deadline now before = ⟨.done (.ok address), time, after⟩ ↔
      t.Creates e ctx limit deadline now before time after ∧
        AddressFile.Tells after.files after.cwd (t.addressPath ctx) address := by
  constructor
  · intro h
    have hcreates := creates_of_runUnder_eq hlive h
    rw [hcreates.runUnder_eq hlive] at h
    exact ⟨hcreates, AddressFile.read_eq_ok_iff.1 (Ending.done.inj (Ended.mk.inj h).1)⟩
  · rintro ⟨hcreates, htells⟩
    rw [hcreates.runUnder_eq hlive, recordedAddress, htells.read_eq]

/-- **A created runner is given the address that is recorded.** If an address was to be read before,
it is answered also when the command has not written the file. -/
theorem createRunner_answers_recorded (t : ToolSteps) (ctx : BranchContext) {e : Executor τ}
    (hlive : e.simulated = false) (limit : Nat) (deadline : Option Nat) (now : Nat)
    (before : Host τ) :
    (∀ address time after,
      (t.createRunner e ctx limit).runUnder deadline now before =
      ⟨.done (.ok address), time, after⟩ ↔
        t.Creates e ctx limit deadline now before time after ∧
          AddressFile.Tells after.files after.cwd (t.addressPath ctx) address) ∧
    ∀ time after, t.Creates e ctx limit deadline now before time after →
      (t.addressBytes ctx after = t.addressBytes ctx before →
        (t.createRunner e ctx limit).runUnder deadline now before =
          ⟨.done (t.recordedAddress ctx before), time, after⟩) ∧
      (t.addressBytes ctx after = t.addressBytes ctx before →
        ((∃ cause, (t.createRunner e ctx limit).runUnder deadline now before =
            ⟨.done (.error (.configuration cause)), time, after⟩) ↔
          AddressFile.TellsNothing before.files before.cwd (t.addressPath ctx))) ∧
      ∀ address, AddressFile.Tells after.files after.cwd (t.addressPath ctx) address →
        ¬ AddressFile.Tells before.files before.cwd (t.addressPath ctx) address →
          t.addressBytes ctx after ≠ t.addressBytes ctx before := by
  refine ⟨fun address time after => runUnder_createRunner_eq_ok_iff hlive,
    fun time after hcreates => ?_⟩
  have hrun := hcreates.runUnder_eq hlive
  have hrunBefore (hkept : t.addressBytes ctx after = t.addressBytes ctx before) :
      (t.createRunner e ctx limit).runUnder deadline now before =
        ⟨.done (t.recordedAddress ctx before), time, after⟩ := by
    rw [hrun, recordedAddress_congr hkept]
  refine ⟨hrunBefore, fun hkept => ?_, fun address htells hbefore hkept => ?_⟩
  · rw [hrunBefore hkept, ← AddressFile.exists_read_eq_configuration_iff]
    constructor
    · rintro ⟨cause, hanswer⟩
      exact ⟨cause, Ending.done.inj (Ended.mk.inj hanswer).1⟩
    · rintro ⟨cause, hread⟩
      exact ⟨cause, by rw [recordedAddress, hread]⟩
  · have hread : t.recordedAddress ctx before = .ok address := by
      rw [← recordedAddress_congr hkept, recordedAddress, htells.read_eq]
    exact hbefore (AddressFile.read_eq_ok_iff.1 hread)

/-! ### Commands that write an address, and commands that do not -/

/-- A branch that has a runner, in a workspace at the root. -/
def runnerContext : BranchContext := runnerPlan.context RunParams.placedConfiguration

/-- An executor whose commands all succeed, and do the same to the files. -/
def changing (f : FileTree → FileTree) : Executor Unit where
  simulated := false
  run _ _ := do
    Timed.modify fun h => { h with files := f h.files }
    pure (.ok { exitCode := some 0 })

theorem creates_changing (f : FileTree → FileTree) {h : Host Unit} (hfiles : IsRunnerFiles h.files)
    (hcwd : h.cwd = []) :
    runnerSteps.Creates (changing f) runnerContext limit deadline now h now
      { h with files := f h.files } := by
  have hprovider : runnerContext.config.backend.provider? = some .gce := rfl
  have htools : checkTools h.files h.cwd runnerSteps.dispatcher.searchDirs Target.here.tools =
      .ok () := by
    rw [hcwd]
    rcases hfiles with hfiles | hfiles <;> rw [hfiles] <;> rfl
  exact .succeeds hprovider htools rfl rfl

/-- Writes an address into the workspace. -/
def writtenFiles (files : FileTree) : FileTree :=
  (AddressFile.write "/ws/sct_runner_ip" ⟨10, 0, 0, 7⟩ files []).2

/-- A command that writes an address over one that a dry run has made up. -/
theorem createRunner_answers_recorded_writtenFiles :
    (changing writtenFiles).simulated = false ∧
      (runnerSteps.createRunner (changing writtenFiles) runnerContext 60).runUnder none 0
          { files := addressedFiles, tools := () } =
        ⟨.done (.ok ⟨10, 0, 0, 7⟩), 0, { files := writtenFiles addressedFiles, tools := () }⟩ ∧
      runnerSteps.addressBytes runnerContext { files := writtenFiles addressedFiles, tools := () } ≠
        runnerSteps.addressBytes runnerContext { files := addressedFiles, tools := () } := by
  have hcreates : runnerSteps.Creates (changing writtenFiles) runnerContext 60 none 0
      { files := addressedFiles, tools := () } 0
      { files := writtenFiles addressedFiles, tools := () } :=
    creates_changing writtenFiles (.inr rfl) rfl
  have htells : AddressFile.Tells (writtenFiles addressedFiles) []
      (runnerSteps.addressPath runnerContext) ⟨10, 0, 0, 7⟩ := AddressFile.read_eq_ok_iff.1 rfl
  have hbefore : ¬ AddressFile.Tells addressedFiles [] (runnerSteps.addressPath runnerContext)
      ⟨10, 0, 0, 7⟩ := by
    intro h
    cases h.read_eq.symm.trans read_addressedFiles
  obtain ⟨hanswers, hcreated⟩ := createRunner_answers_recorded runnerSteps runnerContext
    (e := changing writtenFiles) rfl 60 none 0 { files := addressedFiles, tools := () }
  exact ⟨rfl, (hanswers _ _ _).2 ⟨hcreates, htells⟩, (hcreated _ _ hcreates).2.2 _ htells hbefore⟩

/-- **An address that is not the runner's.** If the command writes nothing, an empty workspace
is an error of the configuration; after a dry run, the answer is the address that the dry run
has made up. -/
theorem stale_address_answered :
    (∃ cause, (runnerSteps.createRunner (changing id) runnerContext 60).runUnder none 0
        { files := unaddressedFiles, tools := () } =
      ⟨.done (.error (.configuration cause)), 0, { files := unaddressedFiles, tools := () }⟩) ∧
    ∃ lines,
      (runnerSteps.createRunner recorder runnerContext 60).runUnder none 0
          { files := unaddressedFiles, tools := [] } =
        ⟨.done (.ok simulatedAddress), 0, { files := addressedFiles, tools := lines }⟩ ∧
      (runnerSteps.createRunner (changing id) runnerContext 60).runUnder none 0
          { files := addressedFiles, tools := () } =
        ⟨.done (.ok simulatedAddress), 0, { files := addressedFiles, tools := () }⟩ := by
  have hnothing : AddressFile.TellsNothing unaddressedFiles []
      (runnerSteps.addressPath runnerContext) :=
    .inl ⟨.missing, rfl⟩
  obtain ⟨cause, hread⟩ := hnothing.exists_read_eq
  have hempty : runnerSteps.Creates (changing id) runnerContext 60 none 0
      { files := unaddressedFiles, tools := () } 0 { files := unaddressedFiles, tools := () } :=
    creates_changing id (.inl rfl) rfl
  have hstale : runnerSteps.Creates (changing id) runnerContext 60 none 0
      { files := addressedFiles, tools := () } 0 { files := addressedFiles, tools := () } :=
    creates_changing id (.inr rfl) rfl
  refine ⟨⟨cause, ?_⟩, _, rfl, hstale.runUnder_eq rfl⟩
  rw [hempty.runUnder_eq rfl, recordedAddress, hread]

end ToolSteps

end Stagehand
