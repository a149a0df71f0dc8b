import Conductor.Effects.Prog
import Conductor.Effects.Block
import Conductor.Effects.Interleave
import Conductor.Effects.Trials
import Conductor.Effects.Coupling
import Conductor.Effects.Relational
import Conductor.Python.Value
import Conductor.Python.Text
import Conductor.Python.Calendar
import Conductor.Python.Json
import Conductor.Python.JsonRoundTrip
import Conductor.Python.Assoc
import Conductor.Python.Access
import Conductor.Python.JsonFile
import Conductor.Python.Pydantic
import Conductor.Interfaces
import Conductor.Runtime.Store
import Conductor.Runtime.Retry
import Conductor.Runtime.Policy
import Conductor.Runtime.CronSchedule
import Conductor.Runtime.CronFields
import Conductor.Runtime.CronValidation
import Conductor.Runtime.LoopRunner
import Conductor.Runtime.LoopInterval
import Conductor.Runtime.LoopLaw
import Conductor.Runtime.LoopOverflow
import Conductor.Supervisor.Calls
import Conductor.Supervisor.Service
import Conductor.Supervisor.Lifecycle
import Conductor.Supervisor.Discipline
import Conductor.Supervisor.Sequential
import Conductor.Supervisor.Authorisation
import Conductor.Supervisor.StoredRecords
import Conductor.Supervisor.Concurrency
import Conductor.Supervisor.Progress
import Conductor.Supervisor.Attempts
import Conductor.Supervisor.Starts
import Conductor.Supervisor.RetryLaw
import Conductor.Supervisor.GuildReports
import Conductor.Effects.Invariant
import Conductor.Supervisor.Stages
import Conductor.Supervisor.Provenance
import Conductor.Supervisor.Announcements
import Conductor.Loader
import Conductor.Supervisor.ApprovalFlag
import Conductor.Supervisor.Custody
import Conductor.Supervisor.Atomicity
import Conductor.Supervisor.Backlog
import Conductor.Supervisor.Stranding
import Conductor.Supervisor.Visible
import Conductor.Supervisor.BusIsolation
import Conductor.Effects.Parallel
import Conductor.Workflow.Contracts
import Conductor.Workflow.Orchestrator
import Conductor.Workflow.Agents
import Conductor.Workflow.Runs
import Conductor.Workflow.Gating
import Conductor.ControlPlane.Workflows
import Conductor.ControlPlane.StatusAgreement
import Conductor.Api.KeyStore
import Conductor.Api.KeyFile
import Conductor.Api.KeyFreshness
import Conductor.Api.Auth
import Conductor.Api.DamagedFile
import Conductor.Guild.Records
import Conductor.Guild.Store
import Conductor.Guild.FaithfulMap
import Conductor.Guild.Knowledge
import Conductor.Guild.Ledger
import Conductor.Guild.Counts
import Conductor.Guild.RoleIsolation
import Conductor.Runtime.Triggers
import Conductor.Runtime.WebhookAccounts
import Conductor.Runtime.TriggerIsolation
import Conductor.ControlPlane.Snapshot
import Conductor.Supervisor.Results
import Conductor.Api.EventBus
import Conductor.Api.EventDelivery
import Conductor.Api.EventFrames
import Conductor.Api.EventRuns
import Conductor.Api.EventSource
import Conductor.Runtime.Backoff
import Conductor.Python.Ranking
import Conductor.Api.Cluster
import Conductor.Api.Fleet
import Conductor.Api.KeyRecords
import Conductor.Api.KeyRights
import Conductor.Api.KeyRevocation
import Conductor.Api.KeyUsage
import Conductor.Supervisor.Decisions
import Conductor.Api.TaskDecisions
import Conductor.Runtime.Opa
import Conductor.Supervisor.RateLimit
import Conductor.Guild.Peer
import Conductor.Runtime.CronTrigger
import Conductor.Memory.MemU
import Conductor.Memory.Scope
import Conductor.Memory.Retrieval
import Conductor.Python.JsonErrors
import Conductor.Runtime.Sandbox
import Conductor.Runtime.SandboxOutcomes
import Conductor.Python.PosixPath
import Conductor.Capabilities.Filesystem
import Conductor.Capabilities.Confinement
import Conductor.Capabilities.Sessions
import Conductor.Guild.Eviction
import Conductor.Runtime.TaskCodec
import Conductor.Runtime.TaskStores
import Conductor.Runtime.Paging
import Conductor.Python.Isoformat
import Conductor.Runtime.SavedTasks
import Conductor.Runtime.ListedTasks
import Conductor.Runtime.TimeOrder
import Conductor.Runtime.Interchange
import Conductor.Runtime.PagedTasks
import Conductor.Effects.Workers
import Conductor.Supervisor.Timeouts
import Conductor.Guild.FoundAgain
import Conductor.Workflow.Batches
import Conductor.Guild.Meeting
import Conductor.Supervisor.SharedGuild
import Conductor.Guild.SharedCounts
import Conductor.Runtime.Linearised
import Conductor.Runtime.PlainMap
import Conductor.Runtime.ReadFaults
import Conductor.Runtime.RealTime
import Conductor.Runtime.UndisturbedCalls
import Conductor.Runtime.Linearizable
import Conductor.Runtime.AtomicStore
import Conductor.Runtime.Leftovers
import Conductor.Runtime.RedisReads
import Conductor.Runtime.SandboxTransparency
import Conductor.Runtime.RiskPolicy
import Conductor.Supervisor.Gates
