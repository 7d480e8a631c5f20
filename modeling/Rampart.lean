import Rampart.Alert
import Rampart.Alert.Wire
import Rampart.Api.Handler
import Rampart.Api.MediaType
import Rampart.Api.Route
import Rampart.Bus
import Rampart.Context
import Rampart.Decision
import Rampart.Decision.Wire
import Rampart.Engine.Client
import Rampart.Engine.Report
import Rampart.Event
import Rampart.Event.Bridge
import Rampart.Event.Wire
import Rampart.Failure
import Rampart.Filter
import Rampart.Hook
import Rampart.Install.Plan
import Rampart.Install.Document
import Rampart.Install.Installer
import Rampart.Job.Attempt
import Rampart.Job.Retry
import Rampart.Job.Scheduler
import Rampart.Json
import Rampart.Json.Decode
import Rampart.Json.Encode
import Rampart.Json.Reader
import Rampart.Label
import Rampart.Label.Wire
import Rampart.Metric
import Rampart.Net.Address
import Rampart.Net.Network
import Rampart.Orchestrator.AlertSync
import Rampart.Orchestrator.Audit
import Rampart.Orchestrator.Bootstrap
import Rampart.Orchestrator.Deployment
import Rampart.Orchestrator.State
import Rampart.Orchestrator.Work
import Rampart.Pattern
import Rampart.Pattern.Parser
import Rampart.Pattern.Property
import Rampart.Process
import Rampart.Registry
import Rampart.Registry.Snapshot
import Rampart.Remote
import Rampart.Remote.Ssh
import Rampart.Rule
import Rampart.Rule.Compiled
import Rampart.Rule.Wire
import Rampart.Scenario
import Rampart.Scenario.Document
import Rampart.Scenario.Upload
import Rampart.Scenario.Wire
import Rampart.Server
import Rampart.Server.Wire
import Rampart.Settings
import Rampart.Settings.File
import Rampart.Settings.Wire
import Rampart.Simulation.Machine
import Rampart.Simulation.Reply
import Rampart.Simulation.Scripted
import Rampart.Simulation.Wire
import Rampart.Simulation.World
import Rampart.Store
import Rampart.Store.Wire
import Rampart.Table
import Rampart.Template
import Rampart.Template.Wire
import Rampart.Text.Blank
import Rampart.Text.Decimal
import Rampart.Text.Letter
import Rampart.Text.Search
import Rampart.Text.Shortest
import Rampart.Text.Word
import Rampart.Time.Calendar
import Rampart.Time.Instant
import Rampart.Time.Wire
import Rampart.Toml
import Rampart.Toml.Draft
import Rampart.Toml.Moment
import Rampart.Toml.Number
import Rampart.Toml.Quoted
import Rampart.Traffic
import Rampart.Traffic.Wire
import Rampart.Yaml
import Rampart.Yaml.Reader
import Rampart.Yaml.Number
import Rampart.Proofs.Filter.Grammar
import Rampart.Proofs.Filter.Written
import Rampart.Proofs.Except
import Rampart.Proofs.Text.Piece
import Rampart.Proofs.Scenario.Isolation
import Rampart.Proofs.Scenario.Meaning
import Rampart.Proofs.Scenario.Negation
import Rampart.Proofs.Execution.Step
import Rampart.Proofs.Remote.Files
import Rampart.Proofs.Bus
import Rampart.Proofs.Job.Scheduler
import Rampart.Proofs.Scenario.Names
import Rampart.Proofs.Scenario.Slug
import Rampart.Proofs.Scenario.Ownership
import Rampart.Proofs.Scenario.Paths
import Rampart.Proofs.Scenario.Activation
import Rampart.Proofs.Deployment.Site
import Rampart.Proofs.Deployment.Request
import Rampart.Proofs.Deployment.Planning
import Rampart.Proofs.Deployment.Jobs
import Rampart.Proofs.Deployment.Quiet
import Rampart.Proofs.Deployment.CredentialSteps
import Rampart.Proofs.Deployment.Frame
import Rampart.Proofs.Deployment.Moves
import Rampart.Proofs.Deployment.Invariant
import Rampart.Proofs.Deployment.Convergence
import Rampart.Proofs.Execution.Schedule
import Rampart.Proofs.Execution.Contract
import Rampart.Proofs.Execution.Deeds
import Rampart.Proofs.Deployment.Sparing
import Rampart.Proofs.Deployment.Bans
import Rampart.Proofs.Deployment.Held
import Rampart.Proofs.Deployment.Errands
import Rampart.Proofs.Deployment.Round
import Rampart.Proofs.Deployment.Edits
import Rampart.Proofs.Deployment.BanConvergence
import Rampart.Proofs.Deployment.Remediation
import Rampart.Proofs.Store.Compilable
import Rampart.Proofs.Store.Reached
import Rampart.Proofs.Store.Tenants
import Rampart.Proofs.Deployment.Enabling
import Rampart.Proofs.Deployment.Lifting
import Rampart.Proofs.Scenario.Replacement
import Rampart.Proofs.Scenario.Sharing
import Rampart.Proofs.Install.Exclusion
import Rampart.Proofs.Store.Numbering
import Rampart.Proofs.Store.Registration
import Rampart.Proofs.Store.Announcements
import Rampart.Proofs.Registry
import Rampart.Proofs.Job.Accounting
import Rampart.Proofs.Job.Window
import Rampart.Proofs.Job.Whereabouts
import Rampart.Proofs.Job.Course
import Rampart.Proofs.Orchestrator.Lenient
import Rampart.Proofs.Orchestrator.Faultless
import Rampart.Proofs.Deployment.Redeploys
import Rampart.Proofs.Deployment.Inactive
import Rampart.Proofs.Deployment.Credentials
import Rampart.Proofs.Deployment.Making
import Rampart.Proofs.Deployment.Scratch
import Rampart.Proofs.Deployment.Missed
import Rampart.Proofs.Deployment.Recovery
import Rampart.Proofs.Alert
import Rampart.Proofs.Traffic
import Rampart.Proofs.Execution.Alone
import Rampart.Proofs.Orchestrator.Pulling
import Rampart.Proofs.Orchestrator.Repetition
import Rampart.Proofs.Store.Directory
import Rampart.Proofs.Orchestrator.Attribution
import Rampart.Proofs.Orchestrator.Auditing
import Rampart.Proofs.Deployment.Uploads
import Rampart.Proofs.Deployment.Agreement
import Rampart.Proofs.Net.Number
import Rampart.Proofs.Net.Address
import Rampart.Proofs.Net.Network
import Rampart.Proofs.Decision.Collection
import Rampart.Proofs.Decision.Meaning
import Rampart.Proofs.Remote.Shell
import Rampart.Proofs.Scenario.RuleSet
import Rampart.Proofs.Scenario.Country
import Rampart.Proofs.Install.Pass
import Rampart.Proofs.Install.Validation
import Rampart.Proofs.Install.Flags
import Rampart.Proofs.Deployment.Coincidence
import Rampart.Proofs.Label
import Rampart.Proofs.Registry.Snapshot
import Rampart.Proofs.Yaml.Scalar
import Rampart.Proofs.Yaml.Document
import Rampart.Proofs.Scenario.Document
