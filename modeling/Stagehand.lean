import Stagehand.Main
import Stagehand.Proofs.Branch.CallOrder
import Stagehand.Proofs.Branch.Cleanup
import Stagehand.Proofs.Branch.Completion
import Stagehand.Proofs.Branch.Enclosure
import Stagehand.Proofs.Branch.FanOut
import Stagehand.Proofs.Branch.Hanging
import Stagehand.Proofs.Branch.Interruption
import Stagehand.Proofs.Branch.Limits
import Stagehand.Proofs.Branch.Records
import Stagehand.Proofs.Branch.Reporting
import Stagehand.Proofs.Branch.Targets
import Stagehand.Proofs.Branch.Telling
import Stagehand.Proofs.Branch.Workspaces
import Stagehand.Proofs.Budget.Arithmetic
import Stagehand.Proofs.Budget.KeepAlive
import Stagehand.Proofs.Command.SecretOrder
import Stagehand.Proofs.CommandLine.NamedBackend
import Stagehand.Proofs.Config.Blanks
import Stagehand.Proofs.Config.Layering
import Stagehand.Proofs.Config.RoundTrip
import Stagehand.Proofs.Dispatch.AddressFile
import Stagehand.Proofs.Dispatch.CreatedRunner
import Stagehand.Proofs.Dispatch.Credentials
import Stagehand.Proofs.Dispatch.DryRun
import Stagehand.Proofs.Dispatch.Environment
import Stagehand.Proofs.Dispatch.Handover
import Stagehand.Proofs.Dispatch.Plan
import Stagehand.Proofs.Dispatch.Secrets
import Stagehand.Proofs.Dispatch.Selectors
import Stagehand.Proofs.Files.Tree
import Stagehand.Proofs.Live.Capturing
import Stagehand.Proofs.Network.Address
import Stagehand.Proofs.Remote.Agent
import Stagehand.Proofs.Remote.Container
import Stagehand.Proofs.Remote.Release
import Stagehand.Proofs.Remote.Session
import Stagehand.Proofs.Shell.Quoting
import Stagehand.Rehearsal.Collaborators
import Stagehand.Rehearsal.Executor
