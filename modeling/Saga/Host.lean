import Saga.Router

/-!
# Hosts

A host routes each message to every handler that subscribed to its type. Every handler works in a
session of its own, so a failing one takes back only what it staged itself. Definitions keep their
instances in partitions named after them; a host gives each name to one definition.
-/

namespace Saga

/-- Who handles the messages of a type. -/
inductive Handler (σ M : Type) where
  /-- The dispatches of a definition. -/
  | workflow (definition : Definition σ M)
  /-- Anything else that handles messages. -/
  | custom (name : String) (handle : M → Scope σ M → Run σ M String)

/-- The name of a handler in logs and reports. -/
def Handler.name {σ M : Type} : Handler σ M → String
  | workflow definition => definition.id.name
  | custom name _ => name

/-- Where messages are delivered. -/
structure Host (σ M : Type) where
  engine : Engine σ M
  router : Router σ M := {}
  /-- The definition that owns each partition name. -/
  owners : Keyed String DefinitionId := Keyed.empty
  /-- The handlers of each message type, in the order in which they subscribed. -/
  handlers : Keyed MessageType (List (Handler σ M)) := Keyed.empty

/-- What became of a delivered message. -/
structure Report where
  /-- The handlers that succeeded, with their outcomes in words. -/
  handled : List (String × String) := []
  /-- The handlers that failed, with their errors. -/
  failed : List (String × EngineError) := []

/-- Whether nobody handled the message. -/
def Report.isEmpty (r : Report) : Bool := r.handled.isEmpty && r.failed.isEmpty

namespace Host

variable {σ M α : Type}

/-- Does some work on the host's engine, outside any delivery. -/
def onEngine (run : Run σ M α) : EStateM EngineError (Host σ M) α := fun h =>
  match run { h.engine with } with
  | .ok a d => .ok a { h with engine := d.toEngine }
  | .error e d => .error e { h with engine := d.toEngine }

/-- The handlers of a message type. -/
def handlersOf (h : Host σ M) (trigger : MessageType) : List (Handler σ M) :=
  (h.handlers.get? trigger).getD []

/-- The number of handlers of a message type. -/
def subscriberCount (h : Host σ M) (trigger : MessageType) : Nat := (h.handlersOf trigger).length

/-- Adds a handler for a message type. -/
def addHandler (trigger : MessageType) (handler : Handler σ M) : Host σ M → Host σ M := fun h =>
  { h with handlers := h.handlers.insert trigger (h.handlersOf trigger ++ [handler]) }

/-- Whether the name of a definition belongs to another one. -/
def nameTaken (h : Host σ M) (id : DefinitionId) : Bool :=
  match h.owners.get? id.name with
  | some owner => owner != id
  | none => false

/-- Subscribes a definition to a message type. The definition is compiled here, so that its defects
come to light before any message does. -/
def subscribe (d : Definition σ M) (trigger : MessageType) :
    EStateM EngineError (Host σ M) Unit := do
  if (← get).nameTaken d.id then
    throw (.build (.duplicateDefinitionName d.id.name))
  let blueprint ← onEngine (Registry.blueprint d trigger)
  onEngine (Delivery.report .info .host
    (s!"Subscribed {d.id.name} to {trigger.name} " ++
      s!"({blueprint.observedMessages.length} observed messages)"))
  modify fun h => { h with owners := h.owners.insert d.id.name d.id }
  modify (addHandler trigger (.workflow d))

variable [Message M]

/-- Lets a handler work on a message. -/
def runHandler (router : Router σ M) (m : M) : Handler σ M → Run σ M String
  | .workflow d => d.handle router.options router.scope m
  | .custom _ handle => handle m router.scope

/-- Lets a handler work on a message in a session of its own, and notes what became of it. -/
def deliverTo (router : Router σ M) (m : M) (progress : Report × Delivery σ M)
    (handler : Handler σ M) : Report × Delivery σ M :=
  let (report, d) := progress
  match Delivery.inFreshSession (runHandler router m handler) d with
  | .ok summary d =>
    ({ report with handled := report.handled ++ [(handler.name, summary)] },
      d.logged .info .host s!"[{handler.name}] {summary}")
  | .error e d =>
    ({ report with failed := report.failed ++ [(handler.name, e)] },
      d.logged .warn .host
        (s!"[{handler.name}] failed on {(Message.type m).name}: {e.message} " ++
          s!"(code={e.code}, retryable={e.isRetryable})"))

/-- Delivers a message to handlers one after the other. They share the cancellation flag, and a
failing one does not stop the others. -/
def deliverAll (router : Router σ M) (m : M) (handlers : List (Handler σ M)) (d : Delivery σ M) :
    Report × Delivery σ M :=
  handlers.foldl (deliverTo router m) ({}, d)

/-- Delivers a message to every handler of its type. The answer is the report, and whether the
delivery is cancelled in the end. -/
def deliver (h : Host σ M) (m : M) (cancelled : Bool) : (Report × Bool) × Host σ M :=
  let opened := h.engine.delivery cancelled
  let (report, d) : Report × Delivery σ M :=
    match h.handlersOf (Message.type m) with
    | [] =>
      ({}, opened.logged .debug .host s!"No subscribers for {(Message.type m).name}")
    | handlers => deliverAll h.router m handlers opened
  ((report, d.cancelled), { h with engine := d.toEngine })

/-- Hands out the committed messages. -/
def drain (h : Host σ M) : List Envelope × Host σ M :=
  let (messages, store) := h.engine.store.drain
  (messages, { h with engine := { h.engine with store } })

end Host

end Saga
