import Saga.Instance.Codec
import Saga.Envelope
import Saga.Identity

/-!
# Order messages

The events that come in about an order, the commands that its fulfilment sends out and the
notifications that it publishes.
-/

namespace Saga.Demo

/-! ## Events, commands and notifications -/

/-- An order was placed. -/
structure OrderPlaced where
  orderId : String
  customerId : String
  amountCents : Nat
  deriving DecidableEq, Repr

/-- The warehouse has set the goods of an order aside. -/
structure StockReserved where
  orderId : String
  deriving DecidableEq, Repr

/-- The payment of an order has come in. -/
structure PaymentCaptured where
  orderId : String
  deriving DecidableEq, Repr

/-- The goods of an order are on their way. -/
structure OrderShipped where
  orderId : String
  tracking : String
  deriving DecidableEq, Repr

/-- An order was called off. -/
structure OrderCancelled where
  orderId : String
  deriving DecidableEq, Repr

/-- Asks the warehouse to set the goods of an order aside. -/
structure ReserveStock where
  orderId : String
  deriving DecidableEq, Repr

/-- Asks the warehouse to put the goods of an order back. -/
structure ReleaseStock where
  orderId : String
  deriving DecidableEq, Repr

/-- Asks the payment provider to collect the payment of an order. -/
structure CapturePayment where
  orderId : String
  deriving DecidableEq, Repr

/-- Asks the warehouse to ship the goods of an order. -/
structure ShipOrder where
  orderId : String
  deriving DecidableEq, Repr

/-- Tells that an order is paid. -/
structure OrderConfirmed where
  orderId : String
  deriving DecidableEq, Repr

/-- Tells that an order was shipped. -/
structure OrderCompleted where
  orderId : String
  tracking : String
  deriving DecidableEq, Repr

/-- Tells that an order was called off. -/
structure OrderVoided where
  orderId : String
  deriving DecidableEq, Repr

/-! ## Payloads -/

/-- The written form of a message that says no more than which order it is about. -/
def orderFields (orderId : String) : Json := .obj [("order_id", .str orderId)]

/-- Reads a message that says no more than which order it is about. -/
def readOrderFields (v : Json) : Except Json.Fault String := do
  match ← v.slots ["order_id"] with
  | [orderId] => orderId.required Json.asText
  | _ => throw .malformed

/-- The written form of a message about a shipped order. -/
def shippedFields (orderId tracking : String) : Json :=
  .obj [("order_id", .str orderId), ("tracking", .str tracking)]

/-- Reads a message about a shipped order. -/
def readShippedFields (v : Json) : Except Json.Fault (String × String) := do
  match ← v.slots ["order_id", "tracking"] with
  | [orderId, tracking] =>
    return (← orderId.required Json.asText, ← tracking.required Json.asText)
  | _ => throw .malformed

instance : Payload OrderPlaced where
  typeName := "corrflow::demo::OrderPlaced"
  encode m := .ok (.obj [("order_id", .str m.orderId), ("customer_id", .str m.customerId),
    ("amount_cents", .int m.amountCents)])
  decode v := do
    match ← v.slots ["order_id", "customer_id", "amount_cents"] with
    | [orderId, customerId, amountCents] =>
      return {
        orderId := ← orderId.required Json.asText
        customerId := ← customerId.required Json.asText
        amountCents := ← amountCents.required (Json.asNat wordBound)
      }
    | _ => throw .malformed

instance : Payload StockReserved where
  typeName := "corrflow::demo::StockReserved"
  encode m := .ok (orderFields m.orderId)
  decode v := (readOrderFields v).map fun orderId => ⟨orderId⟩

instance : Payload PaymentCaptured where
  typeName := "corrflow::demo::PaymentCaptured"
  encode m := .ok (orderFields m.orderId)
  decode v := (readOrderFields v).map fun orderId => ⟨orderId⟩

instance : Payload OrderShipped where
  typeName := "corrflow::demo::OrderShipped"
  encode m := .ok (shippedFields m.orderId m.tracking)
  decode v := (readShippedFields v).map fun r => ⟨r.1, r.2⟩

instance : Payload OrderCancelled where
  typeName := "corrflow::demo::OrderCancelled"
  encode m := .ok (orderFields m.orderId)
  decode v := (readOrderFields v).map fun orderId => ⟨orderId⟩

instance : Payload ReserveStock where
  typeName := "corrflow::demo::ReserveStock"
  encode m := .ok (orderFields m.orderId)
  decode v := (readOrderFields v).map fun orderId => ⟨orderId⟩

instance : Payload ReleaseStock where
  typeName := "corrflow::demo::ReleaseStock"
  encode m := .ok (orderFields m.orderId)
  decode v := (readOrderFields v).map fun orderId => ⟨orderId⟩

instance : Payload CapturePayment where
  typeName := "corrflow::demo::CapturePayment"
  encode m := .ok (orderFields m.orderId)
  decode v := (readOrderFields v).map fun orderId => ⟨orderId⟩

instance : Payload ShipOrder where
  typeName := "corrflow::demo::ShipOrder"
  encode m := .ok (orderFields m.orderId)
  decode v := (readOrderFields v).map fun orderId => ⟨orderId⟩

instance : Payload OrderConfirmed where
  typeName := "corrflow::demo::OrderConfirmed"
  encode m := .ok (orderFields m.orderId)
  decode v := (readOrderFields v).map fun orderId => ⟨orderId⟩

instance : Payload OrderCompleted where
  typeName := "corrflow::demo::OrderCompleted"
  encode m := .ok (shippedFields m.orderId m.tracking)
  decode v := (readShippedFields v).map fun r => ⟨r.1, r.2⟩

instance : Payload OrderVoided where
  typeName := "corrflow::demo::OrderVoided"
  encode m := .ok (orderFields m.orderId)
  decode v := (readOrderFields v).map fun orderId => ⟨orderId⟩

/-! ## Delivered messages -/

/-- The message type of the values of a type. -/
def messageType (α : Type) [Payload α] : MessageType := ⟨Payload.typeName α, 0⟩

/-- An event about an order, as it is delivered. -/
inductive OrderEvent where
  | placed (e : OrderPlaced)
  | stockReserved (e : StockReserved)
  | paymentCaptured (e : PaymentCaptured)
  | shipped (e : OrderShipped)
  | cancelled (e : OrderCancelled)
  deriving DecidableEq, Repr

/-- The order that an event is about. -/
def OrderEvent.orderId : OrderEvent → String
  | placed e => e.orderId
  | stockReserved e => e.orderId
  | paymentCaptured e => e.orderId
  | shipped e => e.orderId
  | cancelled e => e.orderId

/-- The tracking number of an event, if it has one. -/
def OrderEvent.tracking : OrderEvent → String
  | shipped e => e.tracking
  | _ => ""

/-- The customer of an order that is being placed. -/
def OrderEvent.customerId : OrderEvent → String
  | placed e => e.customerId
  | _ => ""

/-- The price of an order that is being placed. -/
def OrderEvent.amountCents : OrderEvent → Nat
  | placed e => e.amountCents
  | _ => 0

instance : Message OrderEvent where
  type
    | .placed _ => messageType OrderPlaced
    | .stockReserved _ => messageType StockReserved
    | .paymentCaptured _ => messageType PaymentCaptured
    | .shipped _ => messageType OrderShipped
    | .cancelled _ => messageType OrderCancelled

end Saga.Demo
