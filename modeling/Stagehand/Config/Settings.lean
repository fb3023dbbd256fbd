import Stagehand.Config.Run

/-!
# Settings

Settings of the tool itself: the image that commands run in, which variables travel into it, how
runners are laid out. Every setting has a default; a few variables override what a file says.
-/

namespace Stagehand

structure Settings where
  image : String := "scylladb/hydra"
  imageTag : String := "v0.89"
  /-- The program that is run inside the image. -/
  entrypoint : String := "./sct.py"
  /-- Variables whose names start with one of these travel into the image. -/
  forwardedStems : List String :=
    ["SCT_", "BUILD_", "JOB_", "GIT_", "AWS_", "GOOGLE_", "AZURE_"]
  remoteUser : String := "ubuntu"
  remoteWorkspace : String := "/home/ubuntu/sct-workspace"
  sshKeys : List String
  awsCredentialsDir : Option String
  gceCredentialsFile : Option String
  azureCredentialsDir : Option String
  /-- The file in a workspace that holds the runner's address. -/
  runnerAddressFile : String := "sct_runner_ip"
  logLevel : String := "info"
  logFormat : String := "pretty"
  deriving DecidableEq, Repr

namespace Settings

/-- The settings of a user whose home directory is given. -/
def default (home : String) : Settings where
  sshKeys :=
    [Path.join (Path.join home ".ssh") "scylla-qa-ec2",
      Path.join (Path.join home ".ssh") "scylla-test"]
  awsCredentialsDir := some (Path.join home ".aws")
  gceCredentialsFile := some (Path.join home ".google_libcloud_auth.qa")
  azureCredentialsDir := some (Path.join home ".azure")

def imageRef (s : Settings) : String := s.image ++ ":" ++ s.imageTag

/-- Sets the image from a reference. A colon in front of a path belongs to a registry's port, and no
tag follows it. -/
def setImage (s : Settings) (reference : String) : Settings :=
  match Text.splitLast? ':' reference with
  | some (image, tag) =>
    if tag.toList.contains '/' then { s with image := reference }
    else { s with image := image, imageTag := tag }
  | none => { s with image := reference }

def setVariable (s : Settings) (name value : String) : Settings :=
  if value.isEmpty then s
  else if name = "HYDRA_IMAGE" then s.setImage value
  else if name = "HYDRA_LOG_LEVEL" then { s with logLevel := value }
  else s

def withVariables (s : Settings) (vars : List (String × String)) : Settings :=
  vars.foldl (fun s v => s.setVariable v.1 v.2) s

end Settings

end Stagehand
