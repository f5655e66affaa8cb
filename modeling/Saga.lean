import Saga.Blueprint
import Saga.Builder
import Saga.Cancellation
import Saga.Checksum
import Saga.Config
import Saga.Delivery
import Saga.Demo.Fulfilment
import Saga.Demo.Loyalty
import Saga.Demo.Orders
import Saga.Demo.Relay
import Saga.Dispatch
import Saga.Envelope
import Saga.Error
import Saga.Files
import Saga.Host
import Saga.Identity
import Saga.Instance
import Saga.Instance.Codec
import Saga.Instance.Table
import Saga.Json.Basic
import Saga.Json.Bytes
import Saga.Json.Magnitude
import Saga.Json.Printer
import Saga.Json.Reader
import Saga.Json.Record
import Saga.Keyed
import Saga.Log
import Saga.Main
import Saga.Pipeline
import Saga.Program
import Saga.Proofs.Blueprint.Compile
import Saga.Proofs.Blueprint.Sequencing
import Saga.Proofs.Builder.Arrangement
import Saga.Proofs.Builder.Calls
import Saga.Proofs.Builder.Clauses
import Saga.Proofs.Builder.Registration
import Saga.Proofs.Builder.Validation
import Saga.Proofs.Cancellation.Families
import Saga.Proofs.Cancellation.Reach
import Saga.Proofs.Cancellation.Waiting
import Saga.Proofs.Cancellation.Watch
import Saga.Proofs.Checksum.Bursts
import Saga.Proofs.Demo.Accounts
import Saga.Proofs.Demo.Draining
import Saga.Proofs.Demo.Finishing
import Saga.Proofs.Demo.Hearing
import Saga.Proofs.Demo.Lifecycle
import Saga.Proofs.Demo.Points
import Saga.Proofs.Demo.Requests
import Saga.Proofs.Demo.Tracking
import Saga.Proofs.Dispatch.Algorithm
import Saga.Proofs.Dispatch.Alike
import Saga.Proofs.Dispatch.Atomicity
import Saga.Proofs.Dispatch.Cancellation
import Saga.Proofs.Dispatch.Committing
import Saga.Proofs.Dispatch.Counting
import Saga.Proofs.Dispatch.Decoding
import Saga.Proofs.Dispatch.Fetch
import Saga.Proofs.Dispatch.Idle
import Saga.Proofs.Dispatch.Live
import Saga.Proofs.Dispatch.Ordinals
import Saga.Proofs.Dispatch.Partition
import Saga.Proofs.Dispatch.Settling
import Saga.Proofs.Dispatch.Stages
import Saga.Proofs.Dispatch.Telling
import Saga.Proofs.Envelope.RoundTrip
import Saga.Proofs.Host.Answers
import Saga.Proofs.Host.Attendance
import Saga.Proofs.Host.Decoding
import Saga.Proofs.Host.Events
import Saga.Proofs.Host.Isolation
import Saga.Proofs.Host.Order
import Saga.Proofs.Host.Ownership
import Saga.Proofs.Host.Repeats
import Saga.Proofs.Host.Subscribing
import Saga.Proofs.Host.Twins
import Saga.Proofs.Interleaving.Changes
import Saga.Proofs.Interleaving.Creation
import Saga.Proofs.Interleaving.Errand
import Saga.Proofs.Interleaving.History
import Saga.Proofs.Interleaving.LookUp
import Saga.Proofs.Interleaving.Phases
import Saga.Proofs.Interleaving.Pool
import Saga.Proofs.Interleaving.Rejections
import Saga.Proofs.Interleaving.Sequential
import Saga.Proofs.Interleaving.Settings
import Saga.Proofs.Interleaving.Steady
import Saga.Proofs.Interleaving.Trail
import Saga.Proofs.Interleaving.Turns
import Saga.Proofs.Json.Bytes
import Saga.Proofs.Json.Canonical
import Saga.Proofs.Json.Compact
import Saga.Proofs.Json.Cut
import Saga.Proofs.Json.Grammar
import Saga.Proofs.Json.Literals
import Saga.Proofs.Lists
import Saga.Proofs.Registry.Agreement
import Saga.Proofs.Registry.Desk
import Saga.Proofs.Script.Actions
import Saga.Proofs.Script.Detached
import Saga.Proofs.Script.Effects
import Saga.Proofs.Script.Emission
import Saga.Proofs.Script.Laws
import Saga.Proofs.Script.Only
import Saga.Proofs.Script.Refusals
import Saga.Proofs.Script.Regime
import Saga.Proofs.Script.Services
import Saga.Proofs.Sequences
import Saga.Proofs.Snapshot.Canonical
import Saga.Proofs.Snapshot.Codec
import Saga.Proofs.Snapshot.Loading
import Saga.Proofs.Snapshot.Places
import Saga.Proofs.Snapshot.Restoring
import Saga.Proofs.Snapshot.RoundTrip
import Saga.Proofs.Snapshot.Tampering
import Saga.Proofs.Snapshot.Torn
import Saga.Proofs.StateSet
import Saga.Proofs.Storage.Admission
import Saga.Proofs.Storage.Batch
import Saga.Proofs.Storage.Bookkeeping
import Saga.Proofs.Storage.Chronicle
import Saga.Proofs.Storage.Landing
import Saga.Proofs.Storage.Ledger
import Saga.Proofs.Storage.Lifecycle
import Saga.Proofs.Storage.Listing
import Saga.Proofs.Storage.Mapping
import Saga.Proofs.Storage.Outbox
import Saga.Proofs.Storage.Rounds
import Saga.Proofs.Text.Order
import Saga.Registry
import Saga.Router
import Saga.Script
import Saga.Services
import Saga.Session
import Saga.Snapshot
import Saga.StateSet
import Saga.Store
import Saga.Text.Blank
import Saga.Text.Hidden
import Saga.Text.Quoted
import Saga.Text.Utf8
import Saga.Yaml.Basic
import Saga.Yaml.Cursor
import Saga.Yaml.Reader
import Saga.Yaml.Scalar
import Saga.Yaml.Tag
import Saga.Yaml.Token
