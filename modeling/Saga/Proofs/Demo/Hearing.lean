import Saga.Demo.Relay
import Saga.Proofs.Demo.Lifecycle
import Saga.Proofs.Host.Subscribing

/-!
# What a host does to its orders

A host to which both workflows have subscribed does to its orders what `hear` says: an event that
reaches its order changes the row of this order alone and sends what is to be sent, and one that is
cancelled or names no order changes nothing that concerns orders (`deliver_heard`).
-/

namespace Saga

variable {σ M : Type} [Message M]

/-- The turn of a definition is its dispatch in a fresh session, which leaves its engine to the next
one. -/
lemma Host.deliverTo_dispatch (router : Router σ M) (m : M) (report : Report) (s : Delivery σ M)
    (d : Definition σ M) :
    let next := (deliverTo router m (report, s) (.workflow d)).2
    let run := d.dispatch router.options router.scope m { s with session := {} }
    next.registry = (Run.final run).registry ∧ next.cancelled = (Run.final run).cancelled ∧
      next.store = (Run.final run).store ∧ next.app = (Run.final run).app := by
  obtain ⟨log, hrun⟩ := deliverTo_run router m report s (.workflow d)
  rw [hrun, (handle_run router m d _).2]
  exact ⟨rfl, rfl, rfl, rfl⟩

/-- The dispatch of a definition in its turn settles, and leaves its engine to the next one. -/
lemma Host.deliverTo_settled (router : Router σ M) (m : M) (report : Report) {s : Delivery σ M}
    {d : Definition σ M} {b : Blueprint σ M d.states} (hd : d.RulesOnly Request.OnlySends)
    (hcompile : d.compile = .ok b) (hfaithful : s.registry.Faithful d)
    (honly : s.registry.Only Request.OnlySends) :
    let next := (deliverTo router m (report, s) (.workflow d)).2
    ∃ run, d.Settled router.scope b m { s with session := {} } run ∧
      next.registry = (Run.final run).registry ∧ next.cancelled = (Run.final run).cancelled ∧
      next.store = (Run.final run).store ∧ next.app = (Run.final run).app := by
  have hservices := router.services_complete
  exact ⟨_, Definition.dispatch_settled router.options hservices hd hcompile m hfaithful honly rfl,
    deliverTo_dispatch router m report s d⟩

namespace Demo

/-! ## What a store knows of orders -/

/-- The ordinal in the row of an order. -/
def orderRow (s : Store) (orderId : String) : Option Int32 := s.state? ⟨orderId, "fulfilment"⟩

/-- Whether a store has changed as an event changes its order. -/
structure Heard (event : OrderEvent) (before after : Store) : Prop where
  rows : ∀ id, orderRow after id =
    if id = event.orderId then (hear (orderRow before id) event).1 else orderRow before id
  outbox : after.outbox = before.outbox ++
    (hear (orderRow before event.orderId) event).2.map (Notice.envelope event.orderId)

/-- Whether a store has changed in nothing that concerns orders. -/
structure Unheard (before after : Store) : Prop where
  rows : ∀ id, orderRow after id = orderRow before id
  outbox : after.outbox = before.outbox

/-- What concerns no order may follow on an event that was heard. -/
lemma Heard.then_unheard {event : OrderEvent} {s s' s'' : Store} (h : Heard event s s')
    (h' : Unheard s' s'') : Heard event s s'' where
  rows id := (h'.rows id).trans (h.rows id)
  outbox := h'.outbox.trans h.outbox

/-- Two changes that concern no order are one such change. -/
lemma Unheard.trans {s s' s'' : Store} (h : Unheard s s') (h' : Unheard s' s'') :
    Unheard s s'' where
  rows id := (h'.rows id).trans (h.rows id)
  outbox := h'.outbox.trans h.outbox

/-- Whether a delivered event reaches the order that it is about. -/
def reaches (event : OrderEvent) (cancelled : Bool) : Bool := !cancelled && !isBlank event.orderId

/-- What a delivered event does to a store, as far as orders are concerned. -/
def Effect (event : OrderEvent) (cancelled : Bool) (before after : Store) : Prop :=
  if reaches event cancelled then Heard event before after else Unheard before after

/-- What concerns no order may follow on the effect of an event. -/
lemma Effect.then_unheard {event : OrderEvent} {cancelled : Bool} {s s' s'' : Store}
    (h : Effect event cancelled s s') (h' : Unheard s' s'') : Effect event cancelled s s'' := by
  unfold Effect at *
  split at h
  · next hreaches =>
    rw [if_pos hreaches]
    exact h.then_unheard h'
  · next hreaches =>
    rw [if_neg hreaches]
    exact h.trans h'

/-! ## Turns -/

/-- The two workflows. -/
def Known (d : Definition Ledger OrderEvent) : Prop := d = fulfilment Ledger ∨ d = loyalty

namespace Known

variable {d d' : Definition Ledger OrderEvent}

/-- The two workflows have different names. -/
lemma eq_of_name (h : Known d) (h' : Known d') (hname : d.id.name = d'.id.name) : d = d' := by
  have hother : (fulfilment Ledger).id.name ≠ loyalty.id.name := by decide
  rcases h with rfl | rfl <;> rcases h' with rfl | rfl
  · rfl
  · exact absurd hname hother
  · exact absurd hname.symm hother
  · rfl

/-- Either workflow compiles. -/
lemma compile (h : Known d) : ∃ b, d.compile = .ok b := by
  rcases h with rfl | rfl
  · exact fulfilment_compile
  · exact loyalty_compile

/-- The actions of either workflow only send. -/
lemma onlySends (h : Known d) : d.RulesOnly Request.OnlySends := by
  rcases h with rfl | rfl
  · exact fulfilment_onlySends
  · exact loyalty_rulesOnly (fun _ => trivial) (fun _ => trivial)

end Known

/-- Whether a registry is faithful to both workflows and keeps no action that does more than send.
-/
structure Trusted (registry : Registry Ledger OrderEvent) : Prop where
  faithful : ∀ d, Known d → registry.Faithful d
  only : registry.Only Request.OnlySends

variable (router : Router Ledger OrderEvent) (event : OrderEvent) (report : Report)
  {s : Delivery Ledger OrderEvent}

/-- A turn of one of the workflows keeps the registry trusted. -/
lemma Trusted.turn (hs : Trusted s.registry) {d : Definition Ledger OrderEvent} (hd : Known d) :
    Trusted (Host.deliverTo router event (report, s) (.workflow d)).2.registry := by
  obtain ⟨b, hcompile⟩ := hd.compile
  obtain ⟨run, hsettled, hregistry, -⟩ := Host.deliverTo_settled router event report
    hd.onlySends hcompile (hs.faithful d hd) hs.only
  rw [hregistry]
  refine ⟨fun d' hd' => ?_, (hs.only.of_origin hd.onlySends hsettled.registry).2⟩
  refine (hs.faithful d' hd').of_origin (fun hid => ?_) hsettled.registry
  exact hd.eq_of_name hd' (congrArg DefinitionId.name hid)

/-- The workflow of an order does what is to be done about the order. -/
lemma fulfilment_turn (hs : Trusted s.registry) :
    Effect event s.cancelled s.store
      (Host.deliverTo router event (report, s) (.workflow (fulfilment Ledger))).2.store := by
  have hknown : Known (fulfilment Ledger) := .inl rfl
  obtain ⟨b, hcompile⟩ := fulfilment_compile
  obtain ⟨run, hsettled, -, -, hstore, -⟩ := Host.deliverTo_settled router event report
    hknown.onlySends hcompile (hs.faithful _ hknown) hs.only
  have hselect : b.selectors.get? (Message.type event) = some OrderEvent.orderId := by
    refine ((Definition.Compiles.of_compile hcompile).selectors _).trans ?_
    cases event <;> rfl
  unfold Effect
  rw [hstore]
  cases hreaches : reaches event s.cancelled with
  | false =>
    have hidle : s.cancelled = true ∨ ∃ e, b.correlate event = .error e := by
      cases hlive : s.cancelled with
      | true => exact .inl rfl
      | false =>
        have hblank : isBlank event.orderId = true := by simpa [reaches, hlive] using hreaches
        exact .inr ⟨.blankCorrelationId b.definition.name (Message.type event).name,
          by simp [Blueprint.correlate, hselect, hblank]⟩
    obtain ⟨hkept, -⟩ := hsettled.idle hidle
    rw [hkept]
    exact ⟨fun _ => rfl, rfl⟩
  | true =>
    obtain ⟨hlive, hblank⟩ : s.cancelled = false ∧ isBlank event.orderId = false := by
      simpa [reaches] using hreaches
    have hcorrelate := Blueprint.correlate_eq_ok_iff.2 ⟨_, hselect, hblank, rfl⟩
    have hmoved := hsettled.moved hlive _ hcorrelate
    have hservices := router.services_complete
    obtain ⟨hstate, hmessages, -⟩ := fulfilment_upshot (.of_compile hcompile) hservices event
      ⟨event.orderId, "fulfilment"⟩ s.app (orderRow s.store event.orderId)
    refine ⟨fun id => ?_, hmoved.outbox.trans (congrArg _ hmessages)⟩
    refine (hmoved.states ⟨id, "fulfilment"⟩).trans ?_
    by_cases hid : id = event.orderId
    · subst hid
      rw [if_pos rfl]
      exact (if_pos rfl).trans hstate
    · rw [if_neg hid]
      exact if_neg fun heq => hid (congrArg InstanceKey.correlationId heq)

/-- The workflow of a customer does nothing that concerns orders. -/
lemma loyalty_turn (hs : Trusted s.registry) :
    Unheard s.store (Host.deliverTo router event (report, s) (.workflow loyalty)).2.store := by
  have hknown : Known loyalty := .inr rfl
  obtain ⟨b, hcompile⟩ := loyalty_compile
  obtain ⟨run, hsettled, -, -, hstore, -⟩ := Host.deliverTo_settled router event report
    hknown.onlySends hcompile (hs.faithful _ hknown) hs.only
  rw [hstore]
  by_cases hidle : s.cancelled = true ∨ ∃ e, b.correlate event = .error e
  · obtain ⟨hkept, -⟩ := hsettled.idle hidle
    rw [hkept]
    exact ⟨fun _ => rfl, rfl⟩
  · obtain ⟨hlive, hfound⟩ := not_or.1 hidle
    cases hcorrelate : b.correlate event with
    | error e => exact absurd ⟨e, hcorrelate⟩ hfound
    | ok id =>
      have hmoved := hsettled.moved (Bool.eq_false_of_not_eq_true hlive) id hcorrelate
      have hother : ∀ orderId, (⟨orderId, "fulfilment"⟩ : InstanceKey) ≠ ⟨id, loyalty.id.name⟩ := by
        intro orderId heq
        have hname : "fulfilment" ≠ loyalty.id.name := by decide
        exact hname (congrArg InstanceKey.definition heq)
      refine ⟨fun orderId => (hmoved.states _).trans (if_neg (hother orderId)), ?_⟩
      rw [hmoved.outbox, Definition.upshot_messages_of_silent (loyalty_silent hcompile event),
        List.append_nil]

/-! ## Deliveries -/

/-- The handlers of an event. -/
def attendants : OrderEvent → List (Handler Ledger OrderEvent)
  | .placed _ => [.workflow (fulfilment Ledger), .workflow loyalty]
  | _ => [.workflow (fulfilment Ledger)]

/-- Whether both workflows, and nobody else, attend to the events of a host. -/
structure Attended (h : OrderHost) : Prop where
  handlers : ∀ event : OrderEvent, h.handlersOf (Message.type event) = attendants event
  trusted : Trusted h.engine.registry

/-- Every event is attended by the fulfilment, and some by the loyalty after it. -/
lemma attendants_cases (event : OrderEvent) :
    attendants event = [.workflow (fulfilment Ledger), .workflow loyalty] ∨
      attendants event = [.workflow (fulfilment Ledger)] := by
  cases event
  case placed e => exact .inl rfl
  all_goals exact .inr rfl

/-- The turns of the handlers of an event do to the orders what it is to do. -/
lemma deliverAll_heard (hs : Trusted s.registry) :
    let last := (Host.deliverAll router event (attendants event) s).2
    Trusted last.registry ∧ Effect event s.cancelled s.store last.store := by
  have htrusted := hs.turn router event {} (.inl rfl : Known (fulfilment Ledger))
  have heffect := fulfilment_turn router event {} hs
  rcases attendants_cases event with hboth | hone
  -- The customer comes after the order, in what the workflow of the order has left.
  · have hall : Host.deliverAll router event (attendants event) s =
        Host.deliverTo router event
          (Host.deliverTo router event ({}, s) (.workflow (fulfilment Ledger)))
          (.workflow loyalty) := by rw [hboth]; rfl
    rw [hall]
    generalize Host.deliverTo router event ({}, s) (.workflow (fulfilment Ledger)) = first at *
    obtain ⟨report, s₁⟩ := first
    have htrusted' := htrusted.turn router event report (.inr rfl : Known loyalty)
    exact ⟨htrusted', heffect.then_unheard (loyalty_turn router event report htrusted)⟩
  · rw [hone]
    exact ⟨htrusted, heffect⟩

/-- A delivery to an attended host is the turns of its handlers. -/
lemma Attended.deliver_eq {h : OrderHost} (hh : Attended h) (event : OrderEvent)
    (cancelled : Bool) :
    (h.deliver event cancelled).2 = { h with
      engine := (Host.deliverAll h.router event (attendants event)
        (h.engine.delivery cancelled)).2.toEngine } := by
  unfold Host.deliver
  rw [hh.handlers]
  rcases attendants_cases event with hboth | hone
  · rw [hboth]
  · rw [hone]

/-- A delivered event does to the orders what it is to do, and leaves the host attended. -/
lemma deliver_heard {h : OrderHost} (hh : Attended h) (event : OrderEvent) (cancelled : Bool) :
    ∃ report h', deliver event cancelled h = .ok report h' ∧ Attended h' ∧
      Effect event cancelled h.engine.store h'.engine.store := by
  refine ⟨_, (h.deliver event cancelled).2, rfl, ?_⟩
  have htrusted : Trusted (h.engine.delivery cancelled).registry := hh.trusted
  obtain ⟨htrusted', heffect⟩ := deliverAll_heard h.router event htrusted
  rw [hh.deliver_eq]
  exact ⟨⟨hh.handlers, htrusted'⟩, heffect⟩

/-! ## Answers -/

/-- The event that answers an envelope, if it is a command that is answered. -/
def answer (e : Envelope) : Except EngineError (Option OrderEvent) :=
  match e.kind with
  | .notification => .ok none
  | .command =>
    if e.messageType = Payload.typeName ReserveStock then
      (e.decode ReserveStock).map fun command => some (.stockReserved ⟨command.orderId⟩)
    else if e.messageType = Payload.typeName CapturePayment then
      (e.decode CapturePayment).map fun command => some (.paymentCaptured ⟨command.orderId⟩)
    else if e.messageType = Payload.typeName ShipOrder then
      (e.decode ShipOrder).map fun command =>
        some (.shipped ⟨command.orderId, "TRK-" ++ command.orderId⟩)
    else .ok none

/-- What answers a command goes by its type. -/
lemma answer_cases {e : Envelope} {event : OrderEvent} (h : answer e = .ok (some event)) :
    e.kind = .command ∧
      ((e.messageType = Payload.typeName ReserveStock ∧ ∃ id, event = .stockReserved ⟨id⟩) ∨
        (e.messageType = Payload.typeName CapturePayment ∧ ∃ id, event = .paymentCaptured ⟨id⟩) ∨
        e.messageType = Payload.typeName ShipOrder ∧ ∃ id tracking,
          event = .shipped ⟨id, tracking⟩) := by
  have hreply : ∀ {α : Type} {decoded : Except EngineError α} {reply : α → OrderEvent},
      decoded.map (fun command => some (reply command)) = .ok (some event) →
        ∃ command, event = reply command := by
    intro α decoded reply h
    cases decoded with
    | error fault => cases h
    | ok command =>
      cases h
      exact ⟨command, rfl⟩
  unfold answer at h
  cases hkind : e.kind with
  | notification =>
    rw [hkind] at h
    cases h
  | command =>
    rw [hkind] at h
    dsimp only at h
    refine ⟨rfl, ?_⟩
    split_ifs at h with hreserve hcapture hship
    · obtain ⟨command, hevent⟩ := hreply h
      exact .inl ⟨hreserve, _, hevent⟩
    · obtain ⟨command, hevent⟩ := hreply h
      exact .inr (.inl ⟨hcapture, _, hevent⟩)
    · obtain ⟨command, hevent⟩ := hreply h
      exact .inr (.inr ⟨hship, _, _, hevent⟩)
    · cases h

/-- A message whose payload can be read is delivered as the event made of it. One whose payload
cannot be read changes nothing. -/
lemma payload_deliver {α : Type} [Payload α] (e : Envelope) (make : α → OrderEvent)
    (cancelled : Bool) (h : OrderHost) :
    (payload α e >>= fun command => deliver (make command) cancelled >>= fun _ => pure true :
        OrderRun Bool) h =
      match e.decode α with
      | .ok command => .ok true (h.deliver (make command) cancelled).2
      | .error fault => .error fault h := by
  unfold payload
  cases e.decode α <;> rfl

/-- What answering an envelope comes to. -/
lemma respond_apply (e : Envelope) (cancelled : Bool) (h : OrderHost) :
    match answer e with
    | .ok (some event) => respond e cancelled h = .ok true (h.deliver event cancelled).2
    | .ok none =>
      ∃ log, respond e cancelled h = .ok false { h with engine := { h.engine with log } }
    | .error fault => respond e cancelled h = .error fault h := by
  obtain ⟨kind, messageType, content⟩ := e
  cases kind with
  | notification => exact ⟨_, rfl⟩
  | command =>
    by_cases hreserve : messageType = Payload.typeName ReserveStock
    · simp only [respond, answer, if_pos hreserve]
      rw [payload_deliver _ fun command : ReserveStock => .stockReserved ⟨command.orderId⟩]
      cases Envelope.decode ReserveStock _ <;> rfl
    by_cases hcapture : messageType = Payload.typeName CapturePayment
    · simp only [respond, answer, if_neg hreserve, if_pos hcapture]
      rw [payload_deliver _ fun command : CapturePayment => .paymentCaptured ⟨command.orderId⟩]
      cases Envelope.decode CapturePayment _ <;> rfl
    by_cases hship : messageType = Payload.typeName ShipOrder
    · simp only [respond, answer, if_neg hreserve, if_neg hcapture, if_pos hship]
      rw [payload_deliver _ fun command : ShipOrder =>
        .shipped ⟨command.orderId, "TRK-" ++ command.orderId⟩]
      cases Envelope.decode ShipOrder _ <;> rfl
    · simp only [respond, answer, if_neg hreserve, if_neg hcapture, if_neg hship]
      exact ⟨_, rfl⟩

/-- Answering an envelope is to deliver the event that answers it, or else changes nothing but the
log. -/
lemma respond_final (e : Envelope) (cancelled : Bool) (h : OrderHost) :
    let h' := Run.final (respond e cancelled h)
    (∃ event, answer e = .ok (some event) ∧ h' = (h.deliver event cancelled).2) ∨
      (∀ event, answer e ≠ .ok (some event)) ∧
        ∃ log, h' = { h with engine := { h.engine with log } } := by
  have happly := respond_apply e cancelled h
  cases hanswer : answer e with
  | error fault =>
    rw [hanswer] at happly
    rw [happly]
    exact .inr ⟨nofun, h.engine.log, rfl⟩
  | ok event? =>
    rw [hanswer] at happly
    cases event? with
    | none =>
      obtain ⟨log, hrun⟩ := happly
      rw [hrun]
      exact .inr ⟨nofun, log, rfl⟩
    | some event =>
      rw [happly]
      exact .inl ⟨event, rfl, rfl⟩

/-- Answering an envelope does to the orders what the event does that answers it, if there is one,
and leaves the host attended. -/
lemma respond_heard {h : OrderHost} (hh : Attended h) (e : Envelope) (cancelled : Bool) :
    let h' := Run.final (respond e cancelled h)
    Attended h' ∧
      match answer e with
      | .ok (some event) => Effect event cancelled h.engine.store h'.engine.store
      | _ => h'.engine.store = h.engine.store := by
  rcases respond_final e cancelled h with ⟨event, hanswer, hfinal⟩ | ⟨hnone, log, hfinal⟩
  · obtain ⟨report, h', hdeliver, hattended, heffect⟩ := deliver_heard hh event cancelled
    cases hdeliver
    rw [hfinal, hanswer]
    exact ⟨hattended, heffect⟩
  · rw [hfinal]
    refine ⟨⟨hh.handlers, hh.trusted⟩, ?_⟩
    split
    · next event hanswer => exact absurd hanswer (hnone event)
    · rfl

/-! ## Opening -/

/-- What subscribes to what. -/
def subscriptions : List (Definition Ledger OrderEvent × MessageType) := [
  (fulfilment Ledger, messageType OrderPlaced),
  (fulfilment Ledger, messageType StockReserved),
  (fulfilment Ledger, messageType PaymentCaptured),
  (fulfilment Ledger, messageType OrderShipped),
  (fulfilment Ledger, messageType OrderCancelled),
  (loyalty, messageType OrderPlaced)]

/-- The demo subscribes its workflows one after the other, each for its messages. -/
lemma subscribe_eq : subscribe = Host.subscribeAll subscriptions := by
  simp [subscribe, Host.subscribeAll, subscriptions]

/-- Both workflows can subscribe to a new host, which they then attend. Nothing else changes but the
registry and the log. -/
lemma subscribe_opens (store : Store) (options : DispatchOptions) (application : List String)
    (now : Timestamp) :
    let opened := newHost store options application now
    ∃ h, subscribe opened = .ok () h ∧ Attended h ∧ h.router = opened.router ∧
      ∃ registry log, h.engine = { opened.engine with registry, log } := by
  intro opened
  have hwelcomes : opened.Welcomes Known := ⟨nofun, nofun⟩
  have hknown : ∀ s ∈ subscriptions, Known s.1 := by
    simp [subscriptions, Known]
  obtain ⟨h, hok, hfaithful, honly, hrouter, hengine, hhandlers⟩ :=
    hwelcomes.subscribeAll (fun _ _ => Known.eq_of_name) (fun _ => Known.compile)
      (fun _ => Known.onlySends) nofun hknown
  refine ⟨h, subscribe_eq ▸ hok, ⟨fun event => ?_, hfaithful.faithful, honly⟩, hrouter, hengine⟩
  rw [hhandlers]
  cases event <;> rfl

/-- On a new host the subscriptions are all accepted, and they leave its store as it is. -/
lemma subscribe_newHost (store : Store) (options : DispatchOptions) (application : List String)
    (now : Timestamp) :
    ∃ h, subscribe (newHost store options application now) = .ok () h ∧ Attended h ∧
      h.engine.store = store := by
  obtain ⟨h, hsubscribe, hattended, -, registry, log, hengine⟩ :=
    subscribe_opens store options application now
  exact ⟨h, hsubscribe, hattended, by rw [hengine]; rfl⟩

end Demo

end Saga
