import CodexGateway.Library.Json
import CodexGateway.Library.JsonRoundTrip
import CodexGateway.Library.JsonCut
import CodexGateway.Library.JsonDict
import CodexGateway.Library.JsonSorted
import CodexGateway.Library.JsonAscii
import CodexGateway.Library.Oracle
import CodexGateway.Library.Lines
import CodexGateway.Library.Machine
import CodexGateway.Library.Base64
import CodexGateway.Library.Climb
import CodexGateway.Library.Follower
import CodexGateway.Library.Fresh
import CodexGateway.Library.Calls
import CodexGateway.Library.Parse
import CodexGateway.Library.Glob
import CodexGateway.Library.ItemStream
import CodexGateway.Library.Lease
import CodexGateway.Library.Pool
import CodexGateway.Library.Mutex
import CodexGateway.Library.Ticket
import CodexGateway.Library.Tokens
import CodexGateway.Library.Argparse
import CodexGateway.SandboxApi.Grants
import CodexGateway.SandboxApi.IssueGrant
import CodexGateway.SandboxApi.ArtifactRefs
import CodexGateway.OpenWebui.Terminal
import CodexGateway.OpenWebui.Continuation
import CodexGateway.OpenWebui.ChatWorkspace
import CodexGateway.OpenWebui.BindCall
import CodexGateway.OpenWebui.BindPublished
import CodexGateway.OpenWebui.DriveIntent
import CodexGateway.OpenWebui.DriveAttempts
import CodexGateway.OpenWebui.CaptureBarrier
import CodexGateway.OpenWebui.StopResponse
import CodexGateway.Frontend.McpAppsHost
import CodexGateway.Worker.AgentEvent
import CodexGateway.Worker.EventLog
import CodexGateway.Worker.RpcSession
import CodexGateway.Worker.RpcEnd
import CodexGateway.Worker.RpcServer
import CodexGateway.Adapter.EventStream
import CodexGateway.Adapter.Record
import CodexGateway.Adapter.Events
import CodexGateway.Adapter.EventText
import CodexGateway.Adapter.OutputItems
import CodexGateway.Adapter.EventGrammar
import CodexGateway.Adapter.Sequence
import CodexGateway.Adapter.Driver
import CodexGateway.Adapter.DriverFollow
import CodexGateway.Adapter.DriverRequests
import CodexGateway.Adapter.DriverStream
import CodexGateway.Adapter.AppScope
import CodexGateway.Adapter.Csp
import CodexGateway.Adapter.McpResource
import CodexGateway.Adapter.McpApps
import CodexGateway.Adapter.Interactions
import CodexGateway.Adapter.AppsDeletion
import CodexGateway.Adapter.Subscribers
import CodexGateway.Adapter.TerminalTold
import CodexGateway.Adapter.TerminalResponse
import CodexGateway.Adapter.Permits
import CodexGateway.Adapter.SerialExecutions
import CodexGateway.Adapter.SharedSandbox
import CodexGateway.Adapter.InputMapping
import CodexGateway.Artifact.Store
import CodexGateway.Artifact.Commit
import CodexGateway.Artifact.Delete
import CodexGateway.StorageOps.Capture
import CodexGateway.StorageOps.CaptureRetry
import CodexGateway.StorageOps.CapturePath
import CodexGateway.StorageOps.Checkout
import CodexGateway.StorageOps.CheckoutCommit
import CodexGateway.StorageOps.FirstCapture
import CodexGateway.StorageOps.RetireRepository
import CodexGateway.StorageOps.CommandLine
import CodexGateway.Manager.State
import CodexGateway.Manager.Transaction
import CodexGateway.Manager.Authorize
import CodexGateway.Manager.SessionPolicy
import CodexGateway.Manager.SingleWriter
import CodexGateway.Manager.Crash
import CodexGateway.Manager.FileOperation
import CodexGateway.Manager.Startup
import CodexGateway.Manager.Reconcile
import CodexGateway.Manager.Recovery
import CodexGateway.Manager.Operation
import CodexGateway.Manager.Workspace
import CodexGateway.Manager.Head
import CodexGateway.Manager.Reaper
import CodexGateway.Manager.Retire
import CodexGateway.Manager.Publish
import CodexGateway.Manager.PublishMove
import CodexGateway.Manager.PublishTarget
import CodexGateway.Manager.PublishRetry
import CodexGateway.Artifact.Parts
import CodexGateway.Artifact.Cleanup
import CodexGateway.Artifact.Capability
import CodexGateway.Artifact.Transfer
import CodexGateway.Adapter.CancelResponse
import CodexGateway.OpenWebui.DeletedChat
import CodexGateway.Manager.Restored
import CodexGateway.Manager.OperationRunner
import CodexGateway.Manager.CheckoutArtifacts
import CodexGateway.OpenWebui.CheckoutNames
