import Saga.Config
import Saga.Demo.Relay
import Saga.Snapshot

/-!
# The demonstration program

`Program.run` is the whole program as a function of its environment, the files and the time: it
loads the settings and the last snapshot, replays some orders, relays what comes out of them, and
saves a snapshot.
-/

namespace Saga.Program

open Saga.Demo

/-- Why the program gives up. -/
inductive Halt where
  | config (cause : ConfigError)
  | store (cause : StoreError)
  | engine (cause : EngineError)

/-- The wording of the reason. -/
def Halt.message : Halt → String
  | config cause => cause.message
  | store cause => cause.message
  | engine cause => cause.message

/-- The host and the files that the program works on. The host keeps the log. -/
structure Process where
  host : OrderHost
  files : Files

/-- A part of the program. -/
abbrev Job := EStateM Halt Process

variable {α : Type}

/-- Works on the host. -/
def onHost (run : OrderRun α) : Job α := fun p =>
  match run p.host with
  | .ok a host => .ok a { p with host }
  | .error e host => .error (.engine e) { p with host }

/-- Works on the files, and keeps the log of it. -/
def onDisk (run : DiskRun α) : Job α := fun p =>
  let update (disk : Disk) : Process :=
    ⟨{ p.host with engine := { p.host.engine with log := disk.log } }, disk.files⟩
  match run ⟨p.files, p.host.engine.log⟩ with
  | .ok a disk => .ok a (update disk)
  | .error e disk => .error (.store e) (update disk)

/-- Adds an entry to the log. -/
def note (severity : Severity) (text : String) : Job Unit :=
  onHost (Host.onEngine (Delivery.report severity .program text))

/-- The orders of the demonstration. -/
def orders : List OrderPlaced :=
  [⟨"o-1", "alice", 4200⟩, ⟨"o-2", "bob", 1500⟩, ⟨"o-3", "alice", 990⟩]

/-- What happens in the demonstration: the orders come in, one is cancelled before the warehouse
answers, and a payment comes in for an order that nobody placed. -/
def events : List OrderEvent :=
  orders.map .placed ++ [.cancelled ⟨"o-2"⟩, .paymentCaptured ⟨"o-404"⟩]

/-- The number of rounds after which the relay gives up. -/
def maxRounds : Nat := 16

/-- Delivers the events and relays what comes out of them. -/
def replay (events : List OrderEvent) : OrderRun RelayEnd := do
  events.forM fun event => discard (deliver event false)
  relay false 0 maxRounds

/-- Loads the rows at a path, if there is anything there. -/
def restore (path : String) : Job Unit := do
  if (← get).files.contains path then
    let (count, store) ← onDisk ((← get).host.engine.store.loadSnapshot path)
    modify fun p => { p with host := { p.host with engine := { p.host.engine with store } } }
    note .info s!"  Restored {count} instances from {path}"
  else note .info s!"  No snapshot at {path}, starting empty"

/-- Saves the rows to a path. -/
def save (path : String) : Job Unit := do
  let engine := (← get).host.engine
  let m ← onDisk (engine.store.saveSnapshot path engine.now)
  note .info s!"Saved {m.instanceCount} instances to {path} (checksum {m.checksum})"

/-- Notes the rows of the store and the points of the customers. -/
def summarise : Job Unit := do
  let engine := (← get).host.engine
  engine.store.instances.forM fun row =>
    let r := row.record
    note .info s!"Instance {r.key.path} state={r.state.toInt} version={r.version}"
  ["alice", "bob"].forM fun customer =>
    note .info s!"Customer {customer} has {engine.app.balance customer} points"

/-- The program under given settings. -/
def body (config : Config) : Job Unit := do
  note .info "Starting corrflow"
  note .info s!"  Persist unchanged state: {config.persistUnchanged}"
  note .info s!"  Optimistic concurrency: {config.optimisticConcurrency}"
  if let some path := config.snapshotPath then restore path
  onHost subscribe
  let compiled := (← get).host.engine.registry.size
  note .info s!"  Compiled blueprints: {compiled}"
  match ← onHost (replay events) with
  | .drained rounds => note .info s!"Outbox drained after {rounds} relay rounds"
  | .busy rounds pending =>
    note .warn s!"Outbox still busy after {rounds} relay rounds, {pending} messages pending"
  summarise
  if let some path := config.snapshotPath then save path
  let commits := (← get).host.engine.store.commits
  note .info s!"Done after {commits} commits"

/-- The rank of the least grave severity that a filter shows, 0 if it shows nothing. -/
def shownRank? (filter : String) : Option Nat :=
  match filter.toLower with
  | "off" => some 0
  | "error" => some Severity.error.rank
  | "warn" => some Severity.warn.rank
  | "info" => some Severity.info.rank
  | "debug" => some Severity.debug.rank
  | "trace" => some Severity.trace.rank
  | _ => none

/-- The entries that the program prints: `RUST_LOG` decides, or else the filter of its settings. A
filter that names no severity shows errors. -/
def shown (env : Environment) (filter : String) (log : List LogEntry) : List LogEntry :=
  let rank := (((env "RUST_LOG").bind shownRank?) <|> shownRank? filter).getD Severity.error.rank
  (log.filter fun e => e.severity.rank ≤ rank).map LogEntry.printed

/-- How the program ended. -/
structure Ending where
  /-- The log entries that are shown. -/
  log : List LogEntry
  files : Files
  /-- Why the program failed, if it did. -/
  failure : Option String := none

/-- The exit code: zero exactly if the program did not fail. -/
def Ending.exitCode (e : Ending) : Nat := if e.failure.isNone then 0 else 1

/-- Runs the program. -/
def run (env : Environment) (files : Files) (now : Timestamp) : Ending :=
  match Config.load env files with
  | .error e =>
    { log := shown env ({} : Config).filter
        [⟨.error, .program, "Failed to load config: " ++ e.message⟩]
      files
      failure := some e.message }
  | .ok config =>
    let host := newHost { options := config.storeOptions } config.dispatchOptions
      [Ledger.serviceName] now
    match body config ⟨host, files⟩ with
    | .ok _ p => { log := shown env config.filter p.host.engine.log, files := p.files }
    | .error e p =>
      { log := shown env config.filter p.host.engine.log
        files := p.files
        failure := some e.message }

end Saga.Program
