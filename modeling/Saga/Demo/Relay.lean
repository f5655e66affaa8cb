import Saga.Demo.Fulfilment
import Saga.Demo.Loyalty
import Saga.Host

/-!
# The relay

The demonstration host and the outside world around it: `respond` answers a committed command as
the warehouse or the payment provider would, with an event that is delivered to the host, and
`relay` answers the outbox round by round until nothing more comes.
-/

namespace Saga.Demo

/-- A host of order events. -/
abbrev OrderHost := Host Ledger OrderEvent

/-- What the host does. -/
abbrev OrderRun := EStateM EngineError OrderHost

/-- A host without subscriptions. -/
def newHost (store : Store) (options : DispatchOptions) (application : List String)
    (now : Timestamp) : OrderHost where
  engine := { store, app := {}, now }
  router := { definitions := [fulfilment Ledger, loyalty], options, application }

/-- Subscribes both workflows to the events that they observe. -/
def subscribe : OrderRun Unit := do
  Host.subscribe (fulfilment Ledger) (messageType OrderPlaced)
  Host.subscribe (fulfilment Ledger) (messageType StockReserved)
  Host.subscribe (fulfilment Ledger) (messageType PaymentCaptured)
  Host.subscribe (fulfilment Ledger) (messageType OrderShipped)
  Host.subscribe (fulfilment Ledger) (messageType OrderCancelled)
  Host.subscribe loyalty (messageType OrderPlaced)

/-- Delivers an event. -/
def deliver (event : OrderEvent) (cancelled : Bool) : OrderRun Report := do
  let ((report, _), host) := (← get).deliver event cancelled
  set host
  return report

/-- Adds an entry to the host's log. -/
def note (source : LogSource) (text : String) : OrderRun Unit :=
  Host.onEngine (Delivery.report .info source text)

/-- Reads the payload of an envelope. -/
def payload (α : Type) [Payload α] (e : Envelope) : OrderRun α :=
  match e.decode α with
  | .ok value => pure value
  | .error error => throw error

/-- Answers an envelope that was handed out. The answer tells whether an event was delivered. -/
def respond (e : Envelope) (cancelled : Bool) : OrderRun Bool := do
  match e.kind with
  | .notification =>
    note .demo s!"Published {e.messageType}: {e.payload.compact}"
    return false
  | .command =>
    if e.messageType = Payload.typeName ReserveStock then
      let command ← payload ReserveStock e
      let _ ← deliver (.stockReserved ⟨command.orderId⟩) cancelled
      return true
    else if e.messageType = Payload.typeName CapturePayment then
      let command ← payload CapturePayment e
      let _ ← deliver (.paymentCaptured ⟨command.orderId⟩) cancelled
      return true
    else if e.messageType = Payload.typeName ShipOrder then
      let command ← payload ShipOrder e
      let _ ← deliver (.shipped ⟨command.orderId, "TRK-" ++ command.orderId⟩) cancelled
      return true
    else
      note .demo s!"Sent {e.messageType}: {e.payload.compact}"
      return false

/-- Hands out the outbox of the host. -/
def drain : OrderRun (List Envelope) := do
  let (messages, host) := (← get).drain
  set host
  return messages

/-- How a relay ended. -/
inductive RelayEnd where
  /-- After so many rounds with messages there was nothing more to answer. -/
  | drained (rounds : Nat)
  /-- After so many rounds there still were messages. -/
  | busy (rounds pending : Nat)
  deriving DecidableEq, Repr

/-- Answers the outbox for up to `rounds` rounds, `before` of them being over. -/
def relay (cancelled : Bool) (before : Nat) : (rounds : Nat) → OrderRun RelayEnd
  | 0 => return .busy before (← get).engine.store.outbox.length
  | rounds + 1 => do
    if cancelled then throw .cancelled
    let messages ← drain
    if messages.isEmpty then return .drained before
    messages.forM fun e => discard (respond e cancelled)
    relay cancelled (before + 1) rounds

end Saga.Demo
