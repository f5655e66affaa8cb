import Saga.Proofs.Interleaving.Errand
import Saga.Proofs.Script.Services
import Saga.Router

/-!
# Dispatches that take turns

A pool holds dispatches on one engine, each with a session of its own, and lets them take turns: one
turn of a task is one request of its script. A forwarded message becomes a task of its own, and the
task that forwarded it waits until that one is over. Between the turns tasks start, deliveries are
cancelled, the clock goes on and the outbox is handed out, all in the order of a list of events.

The pool also remembers which tasks have committed, in the order of their commits, and what they had
staged. Left alone, a task does what its dispatch does by itself (`Pool.start_alone`).
-/

namespace Saga

/-- A dispatch in a pool. -/
structure Task (σ M : Type) extends Errand σ M where
  services : Services (ServiceName.Provider σ M)
  own : services.OfSession
  /-- How often the message may be forwarded from here. -/
  depth : Nat
  session : Session := {}
  cancelled : Bool := false
  /-- What is left of the script of the dispatch. -/
  rest : Script σ M EngineError (Outcome definition.states)
  /-- The task that has to be over before this one goes on. -/
  awaited : Option Nat := none

/-- What it takes to start a dispatch. -/
structure Job (σ M : Type) where
  definition : Definition σ M
  options : DispatchOptions
  message : M
  services : Services (ServiceName.Provider σ M)
  own : services.OfSession
  depth : Nat
  cancelled : Bool := false

/-- A session that was committed: whose it was, and the writes that it had staged. -/
structure Commit where
  task : Nat
  writes : List StagedWrite

/-- Dispatches on one engine. -/
structure Pool (σ M : Type) where
  engine : Engine σ M
  /-- The definitions that messages can be forwarded to. -/
  router : Router σ M := {}
  tasks : List (Task σ M) := []
  commits : List Commit := []

/-- What can happen in a pool. -/
inductive Pool.Event (σ M : Type) where
  | start (job : Job σ M)
  /-- A task takes a turn. -/
  | turn (task : Nat)
  /-- Somebody cancels the delivery of a task. -/
  | cancel (task : Nat)
  | tick (now : Timestamp)
  | drain

variable {σ M : Type}

/-- One turn of a script: it changes the application or makes a request. -/
def Script.turn {ε α : Type} (scope : Scope σ M) :
    Script σ M ε α → Delivery σ M → Script σ M ε α × Delivery σ M
  | .done a, d => (.done a, d)
  | .fail e, d => (.fail e, d)
  | .app change next, d => (next d.app, { d with app := change d.app })
  | .request r next, d =>
    match scope.perform r d with
    | .ok answer d' => (next (.ok answer), d')
    | .error e d' => (next (.error e), d')

/-- The result of a script that has nothing left to do but to report. -/
def Script.settled? {ε α : Type} : Script σ M ε α → Option (Except ε α)
  | .done a => some (.ok a)
  | .fail e => some (.error e)
  | .app _ _ => none
  | .request (.report _) next => (next (.ok ())).settled?
  | .request _ _ => none

namespace Task

/-- The scope of a task. Forwarding is left to the pool. -/
def scope (t : Task σ M) : Scope σ M := ⟨t.services, fun _ _ => throw .cancelled⟩

/-- The engine as a task sees it. -/
def delivery (t : Task σ M) (engine : Engine σ M) : Delivery σ M :=
  { engine with session := t.session, cancelled := t.cancelled }

/-- The result of a task, once it is certain. -/
def verdict? (t : Task σ M) : Option (Except EngineError (Outcome t.definition.states)) :=
  t.rest.settled?

/-- The result of a task in words, once the task is over. -/
def answer? (t : Task σ M) : Option (Except EngineError String) :=
  match t.rest with
  | .done outcome => some (.ok outcome.summary)
  | .fail e => some (.error e)
  | _ => none

end Task

/-- The task that a job becomes once it has its blueprint. -/
def Job.task [Message M] (job : Job σ M) (b : Blueprint σ M job.definition.states) : Task σ M where
  definition := job.definition
  options := job.options
  blueprint := b
  message := job.message
  services := job.services
  own := job.own
  depth := job.depth
  cancelled := job.cancelled
  rest := job.definition.script job.options b job.message

namespace Pool

/-- Puts a task in the place of another one. -/
def put (p : Pool σ M) (i : Nat) (t : Task σ M) : Pool σ M := { p with tasks := p.tasks.set i t }

variable [Message M]

/-- Fetches the blueprint for a job and makes a task of it, which is the last one of the pool. -/
def launch (p : Pool σ M) (job : Job σ M) : Except EngineError (Pool σ M) :=
  match Registry.blueprint job.definition (Message.type job.message)
      (p.engine.delivery job.cancelled) with
  | .ok b d =>
    .ok { p with engine := d.toEngine, tasks := p.tasks ++ [job.task b] }
  | .error e _ => .error e

/-- The job of a message that was forwarded. -/
def forwarded (p : Pool σ M) (d : Definition σ M) (m : M) (depth : Nat) : Job σ M where
  definition := d
  options := p.router.options
  message := m
  services := .ofSession p.router.application
  own := (Services.complete_ofSession p.router.application).ofSession
  depth := depth

/-- Has a task forward a message: starts a task for it, or sees whether that one is over. -/
def forward (p : Pool σ M) (i : Nat) (t : Task σ M) (id : DefinitionId) (m : M)
    (next : Except EngineError String → Script σ M EngineError (Outcome t.definition.states)) :
    Pool σ M :=
  match t.awaited with
  | some j =>
    match p.tasks[j]?.bind Task.answer? with
    | some answer => p.put i { t with rest := next answer, awaited := none }
    | none => p
  | none =>
    match t.depth with
    | 0 =>
      p.put i { t with
        rest := next (.error (.transport s!"messages to {id.name} are forwarded too deeply")) }
    | depth + 1 =>
      match p.router.definitions.find? fun d => d.id = id with
      | none =>
        p.put i { t with rest := next (.error (.transport s!"{id.name} is no known definition")) }
      | some d =>
        match p.launch (p.forwarded d m depth) with
        | .ok launched => launched.put i { t with awaited := some p.tasks.length }
        | .error e => p.put i { t with rest := next (.error e) }

/-- Has a task take a turn on the engine. -/
def advance (p : Pool σ M) (i : Nat) (t : Task σ M) : Pool σ M :=
  let (rest, d) := t.rest.turn t.scope (t.delivery p.engine)
  { p with
    engine := d.toEngine
    tasks := p.tasks.set i { t with session := d.session, cancelled := d.cancelled, rest }
    commits := p.commits ++
      if d.session.committed && !t.session.committed then [⟨i, t.session.writes⟩] else [] }

/-- Has a task take a turn. -/
def turn (p : Pool σ M) (i : Nat) : Pool σ M :=
  match p.tasks[i]? with
  | none => p
  | some t =>
    match t.rest with
    | .request (.forward id m) next => p.forward i t id m next
    | _ => p.advance i t

/-- What an event makes of a pool. A job without a blueprint starts nothing. -/
def step (p : Pool σ M) : Event σ M → Pool σ M
  | .start job => (p.launch job).toOption.getD p
  | .turn i => p.turn i
  | .cancel i =>
    match p.tasks[i]? with
    | none => p
    | some t => p.put i { t with cancelled := true }
  | .tick now => { p with engine := { p.engine with now } }
  | .drain => { p with engine := { p.engine with store := p.engine.store.drain.2 } }

/-- What a list of events makes of a pool. -/
def run (p : Pool σ M) (events : List (Event σ M)) : Pool σ M := events.foldl step p

/-- The tasks that have committed a write to the row under a key, in the order of their commits. -/
def writers (p : Pool σ M) (key : InstanceKey) : List Nat :=
  (p.commits.filter fun c => c.writes.any fun w => w.record.key = key).map Commit.task

end Pool

end Saga
