import Saga.Builder
import Saga.Demo.Orders

/-!
# Customer loyalty

The workflow that makes a member of each customer who orders and awards points for every order. The
points are kept by a ledger, which is a service of the application and no part of any instance.
-/

namespace Saga.Demo

/-- The points of each customer. -/
structure Ledger where
  balances : Keyed String Nat := Keyed.empty

namespace Ledger

/-- The points of a customer. -/
def balance (l : Ledger) (customerId : String) : Nat := (l.balances.get? customerId).getD 0

/-- Adds points to those of a customer. -/
def award (customerId : String) (points : Nat) (l : Ledger) : Ledger :=
  { l with balances := l.balances.insert customerId (l.balance customerId + points) }

/-- The name under which the ledger is a service. -/
def serviceName : String := "dyn corrflow::demo::PointsLedger"

end Ledger

/-- The states of a customer. -/
def memberStates : StateSet where
  name := "corrflow::demo::Membership"
  members := [⟨"Member", 0⟩]

/-- The one state of a customer. -/
def memberStates.member : memberStates.State := ⟨⟨"Member", 0⟩, by decide⟩

/-- Awards a point for every hundred cents of an order. -/
def awardPoints : Action Ledger OrderEvent := fun m => do
  Script.require (.application Ledger.serviceName)
  Script.modify (Ledger.award m.customerId (m.amountCents / 100))
  let ledger ← Script.state
  Script.report .info .demo
    (s!"Customer {m.customerId} earned points on {m.orderId}, " ++
      s!"balance {ledger.balance m.customerId}")

/-- Each customer is an instance, found by the customer's id. -/
def loyalty : Definition Ledger OrderEvent where
  id := ⟨"loyalty", 1⟩
  states := memberStates
  rules := [
    .start (messageType OrderPlaced) memberStates.member [awardPoints],
    .on memberStates.member (messageType OrderPlaced) [.action awardPoints],
    .correlate (messageType OrderPlaced) OrderEvent.customerId]

end Saga.Demo
