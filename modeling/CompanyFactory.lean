import CompanyFactory.Lib.Run
import CompanyFactory.Lib.Effect
import CompanyFactory.Lib.Escrow
import CompanyFactory.Lib.Table
import CompanyFactory.Lib.SingleFlight
import CompanyFactory.Lib.Tail
import CompanyFactory.Lib.FileTree
import CompanyFactory.Lib.Lookup
import CompanyFactory.Lib.Files
import CompanyFactory.Cost.Threshold
import CompanyFactory.Approvals.Veto
import CompanyFactory.Approvals.Final
import CompanyFactory.Company.Frame
import CompanyFactory.Tools.Spec
import CompanyFactory.Connector.Spec
import CompanyFactory.Company.Leak
import CompanyFactory.Company.Binding
import CompanyFactory.Company.Once
import CompanyFactory.Memory.Service
import CompanyFactory.AgentRuntime.Models
import CompanyFactory.AgentRuntime.Turn
import CompanyFactory.AgentRuntime.Approved
import CompanyFactory.AgentRuntime.Trace
import CompanyFactory.Tools.Errors
import CompanyFactory.Tools.Outcome
import CompanyFactory.AgentRuntime.Loop
import CompanyFactory.Orchestrator.Custody
import CompanyFactory.Orchestrator.Served
import CompanyFactory.Storage.Models
import CompanyFactory.Storage.Workspace
import CompanyFactory.Storage.Store
import CompanyFactory.Storage.Contained
import CompanyFactory.Storage.Atomic
import CompanyFactory.Storage.Quota
import CompanyFactory.EventStore.Stream
import CompanyFactory.BoardApi.Stream
import CompanyFactory.Tools.External
import CompanyFactory.SecurityAgent.Sight
import CompanyFactory.Identity.Org
import CompanyFactory.Lib.Forest
import CompanyFactory.Factory.Hire
import CompanyFactory.Factory.Bootstrap
import CompanyFactory.Identity.Tree
import CompanyFactory.Identity.Capacity
import CompanyFactory.BoardApi.LivePairs
import CompanyFactory.BoardApi.Disconnect
import CompanyFactory.InterCompany.Mirror
import CompanyFactory.InterCompany.Models
import CompanyFactory.Orchestrator.System
import CompanyFactory.InterCompany.Receipts
import CompanyFactory.InterCompany.Outbox
import CompanyFactory.Factory.Staff
import CompanyFactory.AgentRuntime.Process
import CompanyFactory.Orchestrator.Losses
import CompanyFactory.Factory.Idle
import CompanyFactory.Factory.CoreRoles
import CompanyFactory.Factory.Create
import CompanyFactory.Factory.Close
import CompanyFactory.Factory.Lifecycle
import CompanyFactory.Lib.DecimalText
import CompanyFactory.Lib.JsonText
import CompanyFactory.Factory.Spec
import CompanyFactory.Llm.Backoff
import CompanyFactory.Llm.Messages
import CompanyFactory.Llm.ToolLoop
import CompanyFactory.AgentRuntime.Notes
import CompanyFactory.Llm.Stream
import CompanyFactory.Llm.Transcript
import CompanyFactory.Llm.History
import CompanyFactory.Llm.Counter
import CompanyFactory.AgentRuntime.Marker
import CompanyFactory.SecurityAgent.PersonaPath
import CompanyFactory.InterCompany.Pause
import CompanyFactory.Lib.Lines
import CompanyFactory.Orchestrator.Fifo
import CompanyFactory.Factory.Fifo
import CompanyFactory.Clock.Clock
import CompanyFactory.Clock.Law
import CompanyFactory.Clock.Ticks
import CompanyFactory.Clock.Monotone
import CompanyFactory.Clock.Stamps
import CompanyFactory.Lib.Schedule
import CompanyFactory.Cost.Subscriptions
import CompanyFactory.Cost.ChargedOnce
import CompanyFactory.Factory.DayTicks
import CompanyFactory.Factory.Restart
import CompanyFactory.Lib.Clients
import CompanyFactory.Cost.Undo
import CompanyFactory.Cost.Afford
import CompanyFactory.Cost.Posts
import CompanyFactory.Cost.Warnings
import CompanyFactory.Cost.Audit
import CompanyFactory.Approvals.Queues
import CompanyFactory.Approvals.Repeat
import CompanyFactory.Approvals.Expiry
import CompanyFactory.SecurityAgent.Denial
import CompanyFactory.Lib.Counter
import CompanyFactory.Lib.Window
import CompanyFactory.SecurityAgent.Scan
import CompanyFactory.Efficiency.Models
import CompanyFactory.Efficiency.Store
import CompanyFactory.Lib.Live
import CompanyFactory.Efficiency.Findings
import CompanyFactory.Efficiency.Service
import CompanyFactory.Efficiency.Reconcile
import CompanyFactory.Efficiency.LoopToolRepeat
import CompanyFactory.Efficiency.Lifecycle
import CompanyFactory.BoardApi.LinkClients
import CompanyFactory.BoardApi.Users
import CompanyFactory.BoardApi.UserCalls
import CompanyFactory.BoardApi.Tokens
import CompanyFactory.BoardApi.LastAdmin
import CompanyFactory.BoardApi.Access
import CompanyFactory.Identity.FireClients
import CompanyFactory.Storage.Signals
import CompanyFactory.Memory.Facts
import CompanyFactory.Memory.FactMap
import CompanyFactory.Lib.Transaction
import CompanyFactory.Storage.Migrations
import CompanyFactory.Lib.Teardown
import CompanyFactory.Factory.Shutdown
import CompanyFactory.Lib.TokenBucket
import CompanyFactory.Orchestrator.Rates
import CompanyFactory.Connector.Rates
import CompanyFactory.Lib.Meter
import CompanyFactory.InterCompany.Rate
import CompanyFactory.InterCompany.Recorded
import CompanyFactory.Orchestrator.Course
import CompanyFactory.Orchestrator.Atomic
import CompanyFactory.Orchestrator.Duplicates
import CompanyFactory.InterCompany.Redelivery
import CompanyFactory.Orchestrator.LoopHistory
import CompanyFactory.AgentRuntime.Calls
import CompanyFactory.AgentRuntime.Keys
import CompanyFactory.Tools.Report
import CompanyFactory.Lib.Utf8
import CompanyFactory.InterCompany.Sanitize
import CompanyFactory.Lib.Pattern
import CompanyFactory.Connector.Sanitizer
import CompanyFactory.Connector.Allowlist
import CompanyFactory.Connector.Secrets
import CompanyFactory.Identity.Reassign
import CompanyFactory.Identity.Traversals
import CompanyFactory.Identity.Fire
import CompanyFactory.SecurityAgent.RoleGuards
import CompanyFactory.Lib.Paging
import CompanyFactory.Performance.Events
import CompanyFactory.Lib.FixedText
import CompanyFactory.Lib.Calendar
import CompanyFactory.Clock.Isoformat
import CompanyFactory.Storage.Timestamps
import CompanyFactory.Orchestrator.Wakeups
import CompanyFactory.Lib.Rounding
import CompanyFactory.Orchestrator.HealthMonitor
import CompanyFactory.Orchestrator.Watchdog
import CompanyFactory.Orchestrator.Nudges
import CompanyFactory.Orchestrator.Alerts
import CompanyFactory.Memory.Recall
import CompanyFactory.Orchestrator.Deques
import CompanyFactory.Efficiency.Detectors
import CompanyFactory.BoardApi.MultiStream
import CompanyFactory.Performance.Report
import CompanyFactory.Performance.SuccessRate
import CompanyFactory.Factory.Overtaken
import CompanyFactory.Performance.Management
