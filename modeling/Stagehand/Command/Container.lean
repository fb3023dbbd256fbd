import Stagehand.Command.Spec

/-!
# Containers

A command is run in a container that sees its workspace under the same path as the host. Variables
are handed over by the arguments, but of sensitive ones the arguments hold the name alone: their
values travel in the environment of the container program.
-/

namespace Stagehand

structure ContainerInvocation where
  /-- The image with its tag. -/
  image : String
  /-- Mounted at the same path inside. -/
  workspace : String
  env : NameMap String := NameMap.empty
  groupIds : List String := []
  /-- Further mounts, as `host:container`. -/
  volumes : List String := []
  command : List String := []

namespace ContainerInvocation

/-- The argument that hands a variable over. -/
def variableArg (v : String × String) : String :=
  if isSensitive v.1 then v.1 else v.1 ++ "=" ++ v.2

/-- The arguments of the container program. -/
def args (i : ContainerInvocation) : List String :=
  ["run", "--rm", "--init", "--network=host", "-v", i.workspace ++ ":" ++ i.workspace,
    "-w", i.workspace] ++
  i.volumes.flatMap (fun v => ["-v", v]) ++
  i.groupIds.flatMap (fun g => ["--group-add", g]) ++
  i.env.toList.flatMap (fun v => ["-e", variableArg v]) ++
  [i.image] ++ i.command

/-- The variables whose values travel in the environment. -/
def sensitiveEnv (i : ContainerInvocation) : List (String × String) :=
  i.env.toList.filter fun v => isSensitive v.1

/-- The command that runs the container on this host. -/
def toCommand (i : ContainerInvocation) : CommandSpec :=
  (CommandSpec.withArgs ⟨"docker", [], NameMap.empty, none, []⟩ i.args).withEnv i.sensitiveEnv

end ContainerInvocation

end Stagehand
