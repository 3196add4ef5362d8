import Traverse.Journal.Crash
import Traverse.Journal.WriteFailure
import Traverse.Trace.Reopen
import Traverse.Events.Delivery
import Traverse.Events.Bookkeeping
import Traverse.Storage.Rollback
import Traverse.Storage.Converge
import Traverse.Events.Agreement
import Traverse.Hosted.Scopes
import Traverse.Storage.Isolation
import Traverse.Storage.BackupRestore
import Traverse.Storage.Handover
import Traverse.Execution.Checkpoint
import Traverse.Storage.Coordinator
import Traverse.Storage.RemoteClients
import Traverse.Hosted.Interchange
import Traverse.Execution.Termination
import Traverse.Proposal.Tokens
import Traverse.Model.Cancel
import Traverse.Model.Fuel
import Traverse.Server.RegistryJournal
import Traverse.Server.Access
import Traverse.Server.Sessions
import Traverse.Server.Workspaces
import Traverse.Model.Snapshot
import Traverse.Wasm.Submit
import Traverse.Events.Retention
import Traverse.Journal.Prune
