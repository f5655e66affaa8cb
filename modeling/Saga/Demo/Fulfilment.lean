import Saga.Builder
import Saga.Demo.Orders

/-!
# Order fulfilment

The workflow that takes an order from its placing to its shipping, or to its cancellation.
-/

namespace Saga.Demo

/-- The states of an order. -/
def orderStates : StateSet where
  name := "corrflow::demo::Fulfilment"
  members := [⟨"Placed", 0⟩, ⟨"Reserved", 1⟩, ⟨"Paid", 2⟩, ⟨"Shipped", 3⟩, ⟨"Cancelled", 4⟩]

namespace orderStates

/-- The warehouse was asked to reserve the goods. -/
def placed : orderStates.State := ⟨⟨"Placed", 0⟩, by decide⟩

/-- The goods are reserved, and the payment was asked for. -/
def reserved : orderStates.State := ⟨⟨"Reserved", 1⟩, by decide⟩

/-- The payment is there, and the warehouse was asked to ship. -/
def paid : orderStates.State := ⟨⟨"Paid", 2⟩, by decide⟩

/-- The goods are on their way. -/
def shipped : orderStates.State := ⟨⟨"Shipped", 3⟩, by decide⟩

/-- The order was called off. -/
def cancelled : orderStates.State := ⟨⟨"Cancelled", 4⟩, by decide⟩

end orderStates

open orderStates in
/-- Each order is an instance, found by the order's id. -/
def fulfilment (σ : Type) : Definition σ OrderEvent where
  id := ⟨"fulfilment", 0⟩
  states := orderStates
  rules := [
    .start (messageType OrderPlaced) placed
      [.sendCommand fun m => (⟨m.orderId⟩ : ReserveStock)],
    .on placed (messageType StockReserved) [
      .action (.sendCommand fun m => (⟨m.orderId⟩ : CapturePayment)),
      .moveTo reserved],
    .on placed (messageType OrderCancelled) [
      .action (.publishNotification fun m => (⟨m.orderId⟩ : OrderVoided)),
      .moveTo cancelled],
    .on reserved (messageType PaymentCaptured) [
      .action (.sendCommand fun m => (⟨m.orderId⟩ : ShipOrder)),
      .action (.publishNotification fun m => (⟨m.orderId⟩ : OrderConfirmed)),
      .moveTo paid],
    .on reserved (messageType OrderCancelled) [
      .action (.sendCommand fun m => (⟨m.orderId⟩ : ReleaseStock)),
      .action (.publishNotification fun m => (⟨m.orderId⟩ : OrderVoided)),
      .moveTo cancelled],
    .on paid (messageType OrderShipped) [
      .action (.publishNotification fun m => (⟨m.orderId, m.tracking⟩ : OrderCompleted)),
      .moveTo shipped],
    .correlate (messageType OrderPlaced) OrderEvent.orderId,
    .correlate (messageType StockReserved) OrderEvent.orderId,
    .correlate (messageType PaymentCaptured) OrderEvent.orderId,
    .correlate (messageType OrderShipped) OrderEvent.orderId,
    .correlate (messageType OrderCancelled) OrderEvent.orderId]

end Saga.Demo
