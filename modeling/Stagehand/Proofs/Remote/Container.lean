import Stagehand.Proofs.NameMap
import Stagehand.Proofs.Shell.Reading
import Stagehand.Remote.Runner

/-!
# A container on a runner and on this host

On this host a container is started with its arguments as they are, and with the values of
sensitive variables in its environment. A runner gets both as one line of text, which its shell
reads. This module compares the two.

Main result: `container_read_iff`. The shell of the runner reads the same program, arguments and
variables **exactly if no sensitive value needs quotes**. Each assignment is quoted as one word,
so a value with a character that is not plain takes the quotes in front of the name, and the shell
takes the whole word for the program.
-/

namespace Stagehand

/-! ## The command on this host -/

namespace CommandSpec

@[simp] theorem env_secret (c : CommandSpec) (value : String) : (c.secret value).env = c.env := by
  unfold secret
  split <;> rfl

@[simp] theorem argv_secret (c : CommandSpec) (value : String) :
    (c.secret value).argv = c.argv := by
  unfold secret
  split <;> rfl

@[simp] theorem env_setEnv (c : CommandSpec) (name value : String) :
    (c.setEnv name value).env = c.env.insert name value := by
  unfold setEnv
  split <;> simp

@[simp] theorem argv_setEnv (c : CommandSpec) (name value : String) :
    (c.setEnv name value).argv = c.argv := by
  unfold setEnv
  split
  · exact argv_secret c value
  · rfl

theorem env_withEnv (c : CommandSpec) (vars : List (String × String)) :
    (c.withEnv vars).env = c.env.insertAll vars := by
  induction vars generalizing c with
  | nil => rfl
  | cons v vars ih => simpa [withEnv, NameMap.insertAll] using ih (c.setEnv v.1 v.2)

theorem argv_withEnv (c : CommandSpec) (vars : List (String × String)) :
    (c.withEnv vars).argv = c.argv := by
  induction vars generalizing c with
  | nil => rfl
  | cons v vars ih => simpa [withEnv] using ih (c.setEnv v.1 v.2)

theorem argv_foldl_secret {α : Type} (f : α → String) (xs : List α) (c : CommandSpec) :
    (xs.foldl (fun c x => c.secret (f x)) c).argv = c.argv := by
  induction xs generalizing c with
  | nil => rfl
  | cons x xs ih => simpa using ih (c.secret (f x))

end CommandSpec

namespace ContainerInvocation

theorem argv_toCommand (i : ContainerInvocation) : i.toCommand.argv = "docker" :: i.args := by
  rw [toCommand, CommandSpec.argv_withEnv]
  rfl

theorem env_toCommand (i : ContainerInvocation) : i.toCommand.env.toList = i.sensitiveEnv := by
  have hsorted : i.sensitiveEnv.Pairwise (fun a b => a.1 < b.1) := i.env.sorted.filter _
  simpa [toCommand, CommandSpec.env_withEnv, CommandSpec.withArgs, NameMap.ofList] using
    NameMap.toList_ofList_of_sorted hsorted

/-- The line that a runner gets. -/
def remoteLine (i : ContainerInvocation) : String :=
  Shell.quoteAll (i.sensitiveEnv.map Shell.assignmentWord ++ i.toCommand.argv)

theorem readSimple_remoteLine (i : ContainerInvocation)
    (names : ∀ v ∈ i.env.toList, Shell.isName v.1) :
    Shell.readSimple i.remoteLine = some
      { assignments := i.sensitiveEnv.takeWhile fun v => Shell.isPlainValue v.2
        argv :=
          (i.sensitiveEnv.dropWhile fun v => Shell.isPlainValue v.2).map Shell.assignmentWord ++
            i.toCommand.argv } := by
  have hnames : ∀ v ∈ i.sensitiveEnv, Shell.isName v.1 := fun v hv =>
    names v (List.mem_filter.1 hv).1
  rw [remoteLine, argv_toCommand]
  exact Shell.readSimple_quoteAll hnames (by decide) (by decide) i.args

end ContainerInvocation

theorem Runner.getLast?_container (r : Runner) (i : ContainerInvocation) :
    (r.container i).args.getLast? = some i.remoteLine := by
  have hargv : (r.container i).argv = "ssh" :: (sshOptions ++ [r.destination, i.remoteLine]) := by
    rw [container, CommandSpec.argv_foldl_secret, ContainerInvocation.remoteLine,
      ContainerInvocation.argv_toCommand]
    rfl
  rw [(List.cons.inj hargv).2, List.getLast?_append]
  rfl

/-! ## The two compared -/

/-- **A runner runs what this host would run exactly if no sensitive value needs quotes.** Ssh hands
over one line. Its shell assigns the sensitive variables up to the first whose value is not plain;
from there on the assignments are words of the command, the first of them its program. -/
theorem Runner.container_read_iff (r : Runner) (i : ContainerInvocation)
    (names : ∀ v ∈ i.env.toList, Shell.isName v.1) :
    ∃ line, (r.container i).args.getLast? = some line ∧
      Shell.readSimple line = some
        { assignments := i.sensitiveEnv.takeWhile fun v => Shell.isPlainValue v.2
          argv := (i.sensitiveEnv.dropWhile fun v => Shell.isPlainValue v.2).map
            (fun v => v.1 ++ "=" ++ v.2) ++ "docker" :: i.args } ∧
      (Shell.readSimple line = some ⟨i.toCommand.env.toList, i.toCommand.argv⟩ ↔
        ∀ v ∈ i.sensitiveEnv, Shell.isPlainValue v.2) := by
  have hread := i.readSimple_remoteLine names
  refine ⟨i.remoteLine, r.getLast?_container i, ?_, ?_⟩
  · rw [hread, i.argv_toCommand]
    rfl
  · rw [hread, i.env_toCommand, Option.some.injEq, Shell.SimpleCommand.mk.injEq,
      List.takeWhile_eq_self_iff]
    refine ⟨And.left, fun h => ⟨h, ?_⟩⟩
    rw [List.dropWhile_eq_nil_iff.2 h, List.map_nil, List.nil_append]

/-- A container with two credentials, of which the second has a blank in it. -/
def blankSecretInvocation : ContainerInvocation where
  image := "img:1"
  workspace := "/ws"
  env := NameMap.ofList
    [("AWS_ACCESS_KEY_ID", "AKIA"), ("AWS_SECRET_ACCESS_KEY", "wJal rXUt"),
      ("SCT_REGION_NAME", "eu-west-1 us-east-1")]
  command := ["./sct.py", "run-test"]

/-- A runner that it may be sent to. -/
def ubuntuRunner : Runner := ⟨⟨10, 0, 0, 9⟩, "ubuntu", "/home/ubuntu/sct-workspace"⟩

theorem Runner.container_read_blankSecret :
    (∀ v ∈ blankSecretInvocation.env.toList, Shell.isName v.1) ∧
      ∃ line, (ubuntuRunner.container blankSecretInvocation).args.getLast? = some line ∧
        Shell.readSimple line = some
          { assignments := [("AWS_ACCESS_KEY_ID", "AKIA")]
            argv :=
              "AWS_SECRET_ACCESS_KEY=wJal rXUt" :: "docker" :: blankSecretInvocation.args } := by
  have names : ∀ v ∈ blankSecretInvocation.env.toList, Shell.isName v.1 := by decide
  obtain ⟨line, hline, hread, -⟩ :=
    Runner.container_read_iff ubuntuRunner blankSecretInvocation names
  refine ⟨names, line, hline, hread.trans ?_⟩
  decide

/-- A secret with a blank in it is no variable of the remote command, but its program. -/
theorem Runner.container_read_ne_local :
    ∃ line, (ubuntuRunner.container blankSecretInvocation).args.getLast? = some line ∧
      Shell.readSimple line ≠
        some
          ⟨blankSecretInvocation.toCommand.env.toList, blankSecretInvocation.toCommand.argv⟩ := by
  refine ⟨_, Runner.getLast?_container _ _, ?_⟩
  rw [blankSecretInvocation.readSimple_remoteLine (by decide), blankSecretInvocation.env_toCommand]
  decide

end Stagehand
