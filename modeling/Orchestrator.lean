import Orchestrator.Compose.Arguments
import Orchestrator.Compose.Sandbox
import Orchestrator.Deploy.Lock
import Orchestrator.Deploy.Settlement
import Orchestrator.Tasks.Promotions
import Orchestrator.Tasks.Attempts
import Orchestrator.Api.RunOutcome
import Orchestrator.Api.Transitions
import Orchestrator.Access.Evidence
import Orchestrator.Access.Slots
import Orchestrator.Access.Episodes
import Orchestrator.Qa.Custody
import Orchestrator.Pipeline.CiFailures
import Orchestrator.Pipeline.QaRepair
import Orchestrator.Pipeline.Delivery
import Orchestrator.Turns.Sweeps
import Orchestrator.Turns.Leases
import Orchestrator.Turns.Outputs
import Orchestrator.Completion.Workers
import Orchestrator.Workspaces.InUse
import Orchestrator.Placement.Waits
import Orchestrator.Placement.Choice
import Orchestrator.Placement.Ports
import Orchestrator.Placement.Capacity
import Orchestrator.Github.Actions
import Orchestrator.Github.Listing
import Orchestrator.Consumers.Accounts
import Orchestrator.Payload.Records
import Orchestrator.LiveWork.Settlement
import Orchestrator.LiveWork.Actions
import Orchestrator.LiveWork.Teardown
import Orchestrator.LiveWork.Interrupted
import Orchestrator.Projects.Bindings
import Orchestrator.Projects.Tokens
import Orchestrator.Resources.Stays
import Orchestrator.Retries.Episodes
import Orchestrator.Access.Releases
import Orchestrator.Po.Answers
import Orchestrator.Async.Runs
import Orchestrator.Cycle.World
import Orchestrator.Cycle.Handling
import Orchestrator.Cycle.Dispatch
import Orchestrator.Cycle.Stories
import Orchestrator.Cycle.Loop
import Orchestrator.Cycle.Isolation
import Orchestrator.Servers.Attempts
import Orchestrator.Environment.Contract
import Orchestrator.Environment.Resolver
import Orchestrator.Environment.Partition
import Orchestrator.Environment.Audience
import Orchestrator.Environment.Merge
import Orchestrator.Dotenv.Decoding
import Orchestrator.Usage.Template
import Orchestrator.Usage.Agreement
import Orchestrator.Qa.ReadFile
import Orchestrator.Compose.Sources
import Orchestrator.Compose.SourceWalk
import Orchestrator.Provisioner.Outages
import Orchestrator.Servers.Sync
import Orchestrator.Servers.Triggers
import Orchestrator.Provisioner.Node
import Orchestrator.Provisioner.Admission
import Orchestrator.Scaffold.World
import Orchestrator.Scaffold.Ready
import Orchestrator.Po.FlatFields
import Orchestrator.Wrapper.Carryover
import Orchestrator.Qa.FailClosed
import Orchestrator.Redis.Additions
import Orchestrator.Projects.Slug
import Orchestrator.Liveness.Stops
import Orchestrator.Qa.Sweeps
import Orchestrator.Analytics.Counts
import Orchestrator.Diagnostics.Masking
import Orchestrator.Scaffold.DataFile
import Orchestrator.Diagnostics.Leaks
import Orchestrator.Rag.Chunks
import Orchestrator.Qa.Egress
