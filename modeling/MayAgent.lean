import MayAgent.Lib.Json
import MayAgent.Lib.Units
import MayAgent.Lib.Table
import MayAgent.Lib.Ancestry
import MayAgent.Lib.Closure
import MayAgent.Lib.Parts
import MayAgent.Lib.Git
import MayAgent.Lib.History
import MayAgent.Lib.Keyset
import MayAgent.Lib.Versions
import MayAgent.Lib.Except
import MayAgent.Lib.Pattern
import MayAgent.Lib.Reach
import MayAgent.Lib.Savepoints
import MayAgent.Lib.Select
import MayAgent.Lib.Stream
import MayAgent.Task.Data
import MayAgent.Task.Events
import MayAgent.Task.Conditions
import MayAgent.Task.Store
import MayAgent.Task.Commit
import MayAgent.Task.Intent
import MayAgent.Task.Scope
import MayAgent.Task.Inputs
import MayAgent.Task.Tracker
import MayAgent.Task.Intake
import MayAgent.Task.Claim
import MayAgent.Task.Changes
import MayAgent.Task.Settle
import MayAgent.Task.Recovery
import MayAgent.Task.Control
import MayAgent.Task.System
import MayAgent.Proof.Commit
import MayAgent.Proof.Snapshot
import MayAgent.Proof.WellFormed
import MayAgent.Proof.Requested
import MayAgent.Proof.Scope
import MayAgent.Proof.Change
import MayAgent.Proof.Lawful
import MayAgent.Proof.Inputs
import MayAgent.Proof.Triggers
import MayAgent.Proof.Wakes
import MayAgent.Proof.Actions
import MayAgent.Proof.LawfulIntake
import MayAgent.Proof.LawfulClaim
import MayAgent.Proof.LawfulSettle
import MayAgent.Proof.LawfulControl
import MayAgent.Proof.Operations
import MayAgent.Proof.Execution
import MayAgent.Proof.Retries
import MayAgent.Proof.Lineage
import MayAgent.Proof.Landed
import MayAgent.Proof.Histories
import MayAgent.Property.Answers
import MayAgent.Property.Batch
import MayAgent.Property.Exclusive
import MayAgent.Property.ExplicitRetry
import MayAgent.Property.Fencing
import MayAgent.Property.Retries
import MayAgent.Property.Generations
import MayAgent.Property.Hint
import MayAgent.Host.Compaction
import Mathlib.Data.Finset.Card
import MayAgent.Host.ControlSocket
import MayAgent.Host.Deadlines
import MayAgent.Host.Delivery
import MayAgent.Host.Edit
import MayAgent.Host.Metrics
import MayAgent.Host.References
import MayAgent.Host.Emitter
import MayAgent.Host.Invocation
import MayAgent.Host.Journal
import MayAgent.Host.Observer
import MayAgent.Host.Relay
import MayAgent.Host.Routing
import MayAgent.Host.Scans
import MayAgent.Host.Schedules
import MayAgent.Host.Sessions
import MayAgent.Host.Telegram
import MayAgent.Host.Transaction
import MayAgent.Host.Workspace
import MayAgent.Host.Writer
import Mathlib.Data.Finset.Dedup
import MayAgent.Property.Closures
import MayAgent.Property.Containment
import MayAgent.Property.Compaction
import MayAgent.Property.ControlSocket
import MayAgent.Property.Confirmation
import MayAgent.Property.Invocation
import MayAgent.Property.Deadlines
import MayAgent.Property.Delivery
import MayAgent.Property.Edit
import MayAgent.Property.Maintenance
import MayAgent.Property.MetricPasses
import MayAgent.Property.Metrics
import MayAgent.Property.Emission
import MayAgent.Property.Journal
import MayAgent.Property.Observation
import MayAgent.Property.Pairs
import MayAgent.Property.Publication
import MayAgent.Property.References
import MayAgent.Property.Relay
import MayAgent.Property.RetainedFacts
import MayAgent.Property.Routing
import MayAgent.Property.Scans
import MayAgent.Property.Schedules
import MayAgent.Property.Sessions
import MayAgent.Property.TaskList
import MayAgent.Property.Telegram
import MayAgent.Property.Transaction
import MayAgent.Property.TranscriptTail
import MayAgent.Property.Trim
import MayAgent.Property.Workspace
import MayAgent.Property.Registry
import MayAgent.Property.TaskPages
