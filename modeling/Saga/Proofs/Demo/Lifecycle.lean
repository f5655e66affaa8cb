import Saga.Demo.Loyalty
import Saga.Demo.Fulfilment
import Saga.Proofs.Builder.Clauses
import Saga.Proofs.Dispatch.Settling

/-!
# The life of an order

`advance` says how far an event takes an order and what is sent about it then. The workflow of an
order does just that (`fulfilment_upshot`), and that of a customer sends nothing (`loyalty_silent`).
-/

namespace Saga

namespace Demo
open Definition

/-- How far an order has come. -/
inductive Stage where
  | placed | reserved | paid | shipped | cancelled
  deriving DecidableEq, Repr

namespace Stage

/-- All stages, in the order of their ordinals. -/
def all : List Stage := [placed, reserved, paid, shipped, cancelled]

/-- The state of the workflow in which orders are that have come so far. -/
def state : Stage → orderStates.State
  | placed => orderStates.placed
  | reserved => orderStates.reserved
  | paid => orderStates.paid
  | shipped => orderStates.shipped
  | cancelled => orderStates.cancelled

/-- The ordinal in the row of an order. -/
def ordinal (stage : Stage) : Int32 := stage.state.ordinal

/-- How far an order has come, by the ordinal in its row. -/
def ofOrdinal? (ordinal : Int32) : Option Stage := all.find? fun stage => stage.ordinal = ordinal

/-- A stage is found by its ordinal. -/
lemma ofOrdinal?_ordinal (stage : Stage) : ofOrdinal? stage.ordinal = some stage := by
  cases stage <;> rfl

/-- Stages differ in their ordinals. -/
lemma ordinal_injective : Function.Injective ordinal := by
  intro stage other h
  have hfound := ofOrdinal?_ordinal stage
  rw [h, ofOrdinal?_ordinal] at hfound
  exact (Option.some.inj hfound).symm

/-- The states of the saga are its stages, by ordinal too. -/
lemma state_ofOrdinal? (ordinal : Int32) :
    orderStates.ofOrdinal? ordinal = (ofOrdinal? ordinal).map state := by
  have hstates : orderStates.states = all.map state := rfl
  rw [StateSet.ofOrdinal?, hstates, List.find?_map]
  rfl

end Stage

/-- What is sent about an order. -/
inductive Notice where
  | reserve | release | capture | ship | confirmed | completed (tracking : String) | voided
  deriving DecidableEq, Repr

/-- The envelope of what is sent about an order. -/
def Notice.envelope (orderId : String) : Notice → Envelope
  | reserve => ⟨.command, Payload.typeName ReserveStock, orderFields orderId⟩
  | release => ⟨.command, Payload.typeName ReleaseStock, orderFields orderId⟩
  | capture => ⟨.command, Payload.typeName CapturePayment, orderFields orderId⟩
  | ship => ⟨.command, Payload.typeName ShipOrder, orderFields orderId⟩
  | confirmed => ⟨.notification, Payload.typeName OrderConfirmed, orderFields orderId⟩
  | completed tracking =>
    ⟨.notification, Payload.typeName OrderCompleted, shippedFields orderId tracking⟩
  | voided => ⟨.notification, Payload.typeName OrderVoided, orderFields orderId⟩

/-- How far an event takes an order, and what is sent about it then. -/
def advance : Option Stage → OrderEvent → Option (Stage × List Notice)
  | none, .placed _ => some (.placed, [.reserve])
  | some .placed, .stockReserved _ => some (.reserved, [.capture])
  | some .placed, .cancelled _ => some (.cancelled, [.voided])
  | some .reserved, .paymentCaptured _ => some (.paid, [.ship, .confirmed])
  | some .reserved, .cancelled _ => some (.cancelled, [.release, .voided])
  | some .paid, .shipped e => some (.shipped, [.completed e.tracking])
  | _, _ => none

/-- How far an event takes the order with this ordinal in its row. -/
def advanceRow : Option Int32 → OrderEvent → Option (Stage × List Notice)
  | none, event => advance none event
  | some ordinal, event =>
    (Stage.ofOrdinal? ordinal).bind fun stage => advance (some stage) event

/-- The ordinal in the row of an order after an event, and what is sent about the order then. -/
def hear (state : Option Int32) (event : OrderEvent) : Option Int32 × List Notice :=
  match advanceRow state event with
  | some (stage, notices) => (some stage.ordinal, notices)
  | none => (state, [])

/-! ## Fulfilment -/

/-- The actions of the fulfilment only send. -/
lemma fulfilment_onlySends : (fulfilment Ledger).RulesOnly Request.OnlySends := by
  have hcommand : ∀ {α : Type} [Payload α] (make : OrderEvent → α) (m : OrderEvent),
      (Action.sendCommand make m : Script Ledger OrderEvent Failure Unit).Only Request.OnlySends :=
    Action.sendCommand_onlySends
  have hnotification : ∀ {α : Type} [Payload α] (make : OrderEvent → α) (m : OrderEvent),
      (Action.publishNotification make m : Script Ledger OrderEvent Failure Unit).Only
        Request.OnlySends := Action.publishNotification_onlySends
  have hrules : ∀ rule ∈ ((fulfilment Ledger).rules : List (Rule Ledger OrderEvent orderStates)),
      ∀ run ∈ rule.actions, ∀ m, (run m).Only Request.OnlySends := by
    unfold fulfilment
    simp [Rule.actions, hcommand, hnotification]
  exact hrules

/-- A definition that is found to compile has a blueprint. -/
lemma compile_of_isOk {σ M : Type} {d : Definition σ M} (h : d.compile.isOk = true) :
    ∃ b, d.compile = .ok b := by
  cases hcompile : d.compile with
  | ok b => exact ⟨b, rfl⟩
  | error e =>
    rw [hcompile] at h
    cases h

/-- The fulfilment compiles. -/
lemma fulfilment_compile : ∃ b, (fulfilment Ledger).compile = .ok b :=
  compile_of_isOk (by decide +kernel)

section Fulfilment

variable {b : Blueprint Ledger OrderEvent (fulfilment Ledger).states}
  {scope : Scope Ledger OrderEvent} (hb : (fulfilment Ledger).Compiles b)
  (hservices : scope.services.Complete)

/-- The payload of the message that an order was shipped has its fields in order already. -/
lemma shippedFields_canonical (orderId tracking : String) :
    (shippedFields orderId tracking).canonical = shippedFields orderId tracking := by
  have hsecond : ¬ "tracking" < "order_id" := by decide
  have hother : "tracking" ≠ "order_id" := by decide
  simp [shippedFields, Json.canonical, Json.canonicalFields, Json.sortFields, Json.putField,
    hsecond, hother]

/-- Whether actions send these notices about the order of an event, and do nothing else. -/
def Sends (scope : Scope Ledger OrderEvent) (event : OrderEvent)
    (actions : List (Action Ledger OrderEvent)) (notices : List Notice) : Prop :=
  List.Forall₂ (fun action e => ∀ x,
      (action event).emission scope.services.contains x = ⟨.ok (), x, [e]⟩)
    actions (notices.map (Notice.envelope event.orderId))

include hservices

/-- An action that sends a command comes to its notice, before those of the actions after it. -/
lemma Sends.command {α : Type} [Payload α] {make : OrderEvent → α} {event : OrderEvent}
    {notice : Notice} {actions : List (Action Ledger OrderEvent)} {notices : List Notice}
    (he : Envelope.command (make event) = .ok (notice.envelope event.orderId))
    (h : Sends scope event actions notices) :
    Sends scope event (.sendCommand make :: actions) (notice :: notices) := by
  have hsender : scope.services.contains .commandSender = true := by
    simp [Services.contains, hservices.commandSender]
  exact .cons (Action.emission_sendCommand hsender he) h

/-- An action that publishes a notification comes to its notice, before those of the actions after
it. -/
lemma Sends.notification {α : Type} [Payload α] {make : OrderEvent → α} {event : OrderEvent}
    {notice : Notice} {actions : List (Action Ledger OrderEvent)} {notices : List Notice}
    (he : Envelope.notification (make event) = .ok (notice.envelope event.orderId))
    (h : Sends scope event actions notices) :
    Sends scope event (.publishNotification make :: actions) (notice :: notices) := by
  have hpublisher : scope.services.contains .notificationPublisher = true := by
    simp [Services.contains, hservices.notificationPublisher]
  exact .cons (Action.emission_publishNotification hpublisher he) h

include hb

/-- A placed order starts with the notices that `advance` says. -/
lemma starts_of_advance {event : OrderEvent} {next : Stage} {notices : List Notice}
    (h : advance none event = some (next, notices)) :
    ∃ actions, b.starts.get? (Message.type event) = some ⟨next.state, actions⟩ ∧
      Sends scope event actions notices := by
  cases event <;> cases h
  exact ⟨_, (hb.starts _).trans rfl, .command hservices rfl .nil⟩

/-- Where `advance` goes on there is a rule that sends what it says. -/
lemma transfers_of_advance {stage : Stage} {event : OrderEvent} {next : Stage}
    {notices : List Notice} (h : advance (some stage) event = some (next, notices)) :
    ∃ actions,
      b.transfers.get? (stage.state, Message.type event) = some ⟨some next.state, actions⟩ ∧
      Sends scope event actions notices := by
  have hrule : ∀ {rule}, Builder.transferRule? (fulfilment Ledger).calls stage.state
      (Message.type event) = some rule →
        b.transfers.get? (stage.state, Message.type event) = some rule :=
    (hb.transfers _ _).trans
  cases stage <;> cases event <;> cases h
  case placed.stockReserved e => exact ⟨_, hrule rfl, .command hservices rfl .nil⟩
  case placed.cancelled e => exact ⟨_, hrule rfl, .notification hservices rfl .nil⟩
  case reserved.paymentCaptured e =>
    exact ⟨_, hrule rfl, .command hservices rfl (.notification hservices rfl .nil)⟩
  case reserved.cancelled e =>
    exact ⟨_, hrule rfl, .command hservices rfl (.notification hservices rfl .nil)⟩
  case paid.shipped e =>
    -- The only payload with two fields: encoding sorts them, and they are sorted already.
    refine ⟨_, hrule rfl, .notification hservices ?_ .nil⟩
    exact congrArg (fun payload => Except.ok (Envelope.mk .notification _ payload))
      (shippedFields_canonical e.orderId e.tracking)

omit hservices

/-- Where `advance` does not go on there is no rule. -/
lemma starts_eq_none {event : OrderEvent} (h : advance none event = none) :
    b.starts.get? (Message.type event) = none := by
  refine (hb.starts _).trans ?_
  cases event with
  | placed e => cases h
  | _ => rfl

/-- Where the table of stages has no entry, the blueprint has no rule. -/
lemma transfers_eq_none {stage : Stage} {event : OrderEvent}
    (h : advance (some stage) event = none) :
    b.transfers.get? (stage.state, Message.type event) = none := by
  refine (hb.transfers _ _).trans ?_
  cases stage <;> cases event
  case placed.stockReserved | placed.cancelled | reserved.paymentCaptured | reserved.cancelled
    | paid.shipped => cases h
  all_goals rfl

include hservices

/-- The workflow of an order takes it as far as `hear` says, sends what it says, and leaves the
ledger alone. -/
lemma fulfilment_upshot (event : OrderEvent) (key : InstanceKey) (app : Ledger)
    (state : Option Int32) :
    ((fulfilment Ledger).upshot scope b event key app state).state = (hear state event).1 ∧
      ((fulfilment Ledger).upshot scope b event key app state).messages =
        (hear state event).2.map (Notice.envelope event.orderId) ∧
      ((fulfilment Ledger).upshot scope b event key app state).app = app := by
  have hemit : ∀ {actions notices}, Sends scope event actions notices →
      b.emit scope event actions app =
        ⟨.ok (), app, notices.map (Notice.envelope event.orderId)⟩ :=
    fun h => emitAll_of_forall₂ h app
  cases state with
  | none =>
    cases hadvance : advance none event with
    | none =>
      simp only [hear, advanceRow, hadvance, upshot, starts_eq_none hb hadvance, List.map_nil,
        and_self]
    | some step =>
      obtain ⟨actions, hrule, hsends⟩ := starts_of_advance hb hservices hadvance
      simp only [hear, advanceRow, hadvance, upshot, hrule, hemit hsends]
      exact ⟨rfl, trivial, trivial⟩
  | some ordinal =>
    have hdecode : (fulfilment Ledger).states.ofOrdinal? ordinal = _ :=
      Stage.state_ofOrdinal? ordinal
    cases hstage : Stage.ofOrdinal? ordinal with
    | none =>
      rw [hstage] at hdecode
      simp only [hear, advanceRow, hstage, Option.bind_none, upshot, hdecode, Option.map_none,
        List.map_nil, and_self]
    | some stage =>
      rw [hstage, Option.map_some] at hdecode
      cases hadvance : advance (some stage) event with
      | none =>
        simp only [hear, advanceRow, hstage, Option.bind_some, hadvance, upshot, hdecode,
          transfers_eq_none hb hadvance, List.map_nil, and_self]
      | some step =>
        obtain ⟨actions, hrule, hsends⟩ := transfers_of_advance hb hservices hadvance
        simp only [hear, advanceRow, hstage, Option.bind_some, hadvance, upshot, hdecode, hrule,
          hemit hsends]
        exact ⟨rfl, trivial, trivial⟩

end Fulfilment

/-! ## Loyalty -/

/-- The workflow of a customer asks for the ledger and reports, and makes no other requests. -/
lemma loyalty_rulesOnly {p : Request OrderEvent → Prop} (hrequire : ∀ service, p (.require service))
    (hreport : ∀ entry, p (.report entry)) : loyalty.RulesOnly p := by
  have haward : ∀ m, (awardPoints m).Only p := fun m =>
    (Script.Only.ask (hrequire _)).bind fun _ _ _ => Script.Only.ask (hreport _)
  have hrules : ∀ rule ∈ (loyalty.rules : List (Rule Ledger OrderEvent memberStates)),
      ∀ run ∈ rule.actions, ∀ m, (run m).Only p := by
    unfold loyalty
    simp [Rule.actions, haward]
  exact hrules

/-- The loyalty workflow compiles. -/
lemma loyalty_compile : ∃ b, loyalty.compile = .ok b := compile_of_isOk (by decide +kernel)

/-- The workflow of a customer sends nothing. -/
lemma loyalty_silent {b : Blueprint Ledger OrderEvent loyalty.states} (h : loyalty.compile = .ok b)
    (m : OrderEvent) : b.Only (fun r => r.sent = []) m :=
  .of_compile (fun rule hrule run hrun =>
    loyalty_rulesOnly (fun _ => rfl) (fun _ => rfl) rule hrule run hrun m) h

end Demo

end Saga
