import Stagehand.Config.Params
import Stagehand.Config.Settings
import Stagehand.Yaml.Record

/-!
# Parameters and settings as documents

Both are records whose names are optional; unknown names are passed over. Settings are looked for at
a given path, then in the working directory, then in the user's configuration directory.
-/

namespace Stagehand

open Yaml (Reading Record Node)

/-- What is read from a document, or why it is refused. -/
def fromDocument {α : Type} (x : Reading α) : RunResult α := x.mapError RunError.document

/-! ## Parameters -/

namespace RunParams

def ofRecord (r : Record) : Reading RunParams := do
  let text := fun name => r.field name (Node.readOptional Node.readText) Option.none
  .ok
    { backend := ← text "backend"
      region := ← text "region"
      availabilityZone := ← text "availability_zone"
      amiId := ← text "ami_id"
      version := ← text "version"
      repo := ← text "repo"
      dockerImage := ← text "docker_image"
      postBehaviorDb := ← text "post_behavior_db_nodes"
      postBehaviorLoader := ← text "post_behavior_loader_nodes"
      postBehaviorMonitor := ← text "post_behavior_monitor_nodes"
      provisionType := ← text "provision_type"
      testName := ← text "test_name"
      testConfig := ← text "test_config"
      durationMinutes := ← r.field "duration_minutes" (Node.readOptional Node.readWhole) Option.none
      emailRecipients := ← text "email_recipients"
      extraEnv := ← r.field "extra_env" Node.readTextMap NameMap.empty }

def ofDocument (text : String) : RunResult RunParams :=
  fromDocument do ofRecord (← Record.ofText text)

/-- The parameters of the document in a file. -/
def ofFile (path : String) (files : FileTree) (cwd : List String) : RunResult RunParams :=
  match files.readText cwd path with
  | .ok text => ofDocument text
  | .error e => .error (.file e)

end RunParams

/-! ## Settings -/

namespace Settings

/-- The settings of a record, over those in `base`. -/
def ofRecord (base : Settings) (r : Record) : Reading Settings := do
  let text := fun name default => r.field name Node.readText default
  let path := fun name default => r.field name (Node.readOptional Node.readText) default
  .ok
    { image := ← text "image" base.image
      imageTag := ← text "image_tag" base.imageTag
      entrypoint := ← text "entrypoint" base.entrypoint
      forwardedStems := ← r.field "forwarded_env_prefixes" Node.readTexts base.forwardedStems
      remoteUser := ← text "remote_user" base.remoteUser
      remoteWorkspace := ← text "remote_workspace" base.remoteWorkspace
      sshKeys := ← r.field "ssh_keys" Node.readTexts base.sshKeys
      awsCredentialsDir := ← path "aws_credentials_dir" base.awsCredentialsDir
      gceCredentialsFile := ← path "gce_credentials_file" base.gceCredentialsFile
      azureCredentialsDir := ← path "azure_credentials_dir" base.azureCredentialsDir
      runnerAddressFile := ← text "runner_ip_file" base.runnerAddressFile
      logLevel := ← text "log_level" base.logLevel
      logFormat := ← text "log_format" base.logFormat }

/-- The settings of a document, over those in `base`. -/
def ofDocument (base : Settings) (text : String) : RunResult Settings :=
  if (Text.trim text).isEmpty then .ok base
  else fromDocument do ofRecord base (← Record.ofText text)

/-- The settings of the document in a file, over those in `base`. -/
def ofFile (base : Settings) (path : String) (files : FileTree) (cwd : List String) :
    RunResult Settings :=
  match files.readText cwd path with
  | .ok text => base.ofDocument text
  | .error e => .error (.configuration (.unreadableSettings path e))

/-- Where settings are looked for when no path is given. -/
def candidates (configDir : String) : List String :=
  ["hydra.yaml", Path.join (Path.join configDir "hydra") "config.yaml"]

/-- The settings of a given file, or of the first candidate that is there. -/
def load (base : Settings) (configDir : String) (given : Option String) (files : FileTree)
    (cwd : List String) : RunResult Settings :=
  match given.or ((candidates configDir).find? fun p => files.isFile cwd p) with
  | some path => base.ofFile path files cwd
  | none => .ok base

end Settings

end Stagehand
