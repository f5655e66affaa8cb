import Mathlib.Algebra.Order.Ring.Nat
import Saga.Proofs.Demo.Accounts
import Saga.Proofs.Dispatch.Partition

/-!
# The points of customers

An order that is delivered live, for a customer whose id is not blank, is awarded once, whatever
became of the order itself: the workflow of the customer awards it and counts it in the version of
the customer's row (`loyalty_awards`). Nothing else touches the ledger or these rows: not the
workflow of the order (`fulfilment_spares`), and no event but a placed order. So after any run the
ledger and the rows match the orders that were delivered (`points_match_orders`).
-/

namespace Saga

variable {σ M : Type} [Message M]

/-- A turn of a definition that only sends leaves the store and the application alone, if it is
cancelled or the message has no correlation id, and ends as prescribed otherwise. -/
lemma Host.deliverTo_prescribed (router : Router σ M) (m : M) (report : Report) {s : Delivery σ M}
    {d : Definition σ M} {b : Blueprint σ M d.states} (hd : d.RulesOnly Request.OnlySends)
    (hcompile : d.compile = .ok b) (hfaithful : s.registry.Faithful d)
    (honly : s.registry.Only Request.OnlySends) :
    let next := (deliverTo router m (report, s) (.workflow d)).2
    (s.cancelled = true ∨ ∃ e, b.correlate m = .error e) ∧
        next.store = s.store ∧ next.app = s.app ∨
      s.cancelled = false ∧ ∃ id result, b.correlate m = .ok id ∧
        d.Prescribes router.options router.scope b m ⟨id, d.id.name⟩ s.now s.app s.store result
          next.app next.store := by
  intro next
  let fresh : Delivery σ M := { s with session := {} }
  let run := d.dispatch router.options router.scope m fresh
  obtain ⟨-, -, hstore, happ⟩ := deliverTo_dispatch router m report s d
  have hservices := router.services_complete
  cases hlive : s.cancelled with
  | true =>
    have hsettled : d.Settled router.scope b m fresh run :=
      Definition.dispatch_settled router.options hservices hd hcompile m hfaithful honly rfl
    obtain ⟨hkept, hkept'⟩ := hsettled.idle (.inl hlive)
    exact .inl ⟨.inl rfl, hstore.trans hkept, happ.trans hkept'⟩
  | false =>
    obtain ⟨registry, -, -, hlived⟩ := Definition.dispatch_lived (s := fresh) router.options
      hservices hd hcompile m hfaithful honly rfl hlive
    rcases hlived.ends with ⟨e, he, -, hkept, hkept'⟩ | ⟨id, hid, hends⟩
    · exact .inl ⟨.inr ⟨e, he⟩, hstore.trans hkept, happ.trans hkept'⟩
    · refine .inr ⟨rfl, id, Run.result run, hid, ?_⟩
      show d.Prescribes _ _ b m _ _ _ _ _ next.app next.store
      rw [hstore, happ]
      exact hends

namespace Demo
open Definition

/-! ## What is awarded -/

/-- The points for an order: one for every hundred cents. -/
def OrderPlaced.points (order : OrderPlaced) : Nat := order.amountCents / 100

/-- The row of a customer, which holds the number of orders as its version. -/
def member (customerId : String) (store : Store) : Option InstanceRecord :=
  store.record? ⟨customerId, "loyalty"⟩

/-- The row that a customer is to have after so many orders. -/
def membership (customerId : String) : Nat → Option InstanceRecord
  | 0 => none
  | n + 1 => some ⟨⟨customerId, "loyalty"⟩, memberStates.member.ordinal, n + 1⟩

/-- Whether nothing has changed that concerns customers. -/
structure Unawarded (before after : Engine Ledger OrderEvent) : Prop where
  app : after.app = before.app
  rows : ∀ id, member id after.store = member id before.store

/-- Whether an order was awarded, and counted in the row of its customer, if the row was in order.
-/
structure Awarded (order : OrderPlaced) (before after : Engine Ledger OrderEvent) : Prop where
  here : ∀ n, member order.customerId before.store = membership order.customerId n →
    after.app = before.app.award order.customerId order.points ∧
      member order.customerId after.store = membership order.customerId (n + 1)
  elsewhere : ∀ id, id ≠ order.customerId → member id after.store = member id before.store

/-- Two changes that concern no customer are one such change. -/
lemma Unawarded.trans {e e' e'' : Engine Ledger OrderEvent} (h : Unawarded e e')
    (h' : Unawarded e' e'') : Unawarded e e'' where
  app := h'.app.trans h.app
  rows id := (h'.rows id).trans (h.rows id)

/-- What is awarded may follow on what concerns no customer. -/
lemma Awarded.of_unawarded {order : OrderPlaced} {e e' e'' : Engine Ledger OrderEvent}
    (h : Unawarded e e') (h' : Awarded order e' e'') : Awarded order e e'' where
  here n hrow := by
    rw [← h.app]
    exact h'.here n ((h.rows _).trans hrow)
  elsewhere id hid := (h'.elsewhere id hid).trans (h.rows id)

/-- The order that a delivery is about, if it is live and places one. -/
def placedOrder? : OrderEvent → Bool → Option OrderPlaced
  | .placed order, false => some order
  | _, _ => none

/-- The order that is awarded for a delivery: one that is placed live, for a customer whose id is
not blank. -/
def award? (event : OrderEvent) (cancelled : Bool) : Option OrderPlaced :=
  (placedOrder? event cancelled).filter fun order => !isBlank order.customerId

/-- What a delivery has to do with customers. -/
def Award (order? : Option OrderPlaced) (before after : Engine Ledger OrderEvent) : Prop :=
  match order? with
  | some order => Awarded order before after
  | none => Unawarded before after

/-- An award raises the balance of its customer and no other. -/
lemma Ledger.balance_award (ledger : Ledger) (customerId other : String) (points : Nat) :
    (ledger.award customerId points).balance other =
      ledger.balance other + if customerId = other then points else 0 := by
  unfold award balance
  rw [Keyed.get?_insert]
  split
  · next heq =>
    subst heq
    rfl
  · rfl

/-! ## Loyalty -/

/-- The action of the loyalty workflow awards the points of the order and sends nothing. -/
lemma emission_awardPoints {present : ServiceName → Bool}
    (hledger : present (.application Ledger.serviceName) = true) (event : OrderEvent) (x : Ledger) :
    (awardPoints event).emission present x =
      ⟨.ok (), x.award event.customerId (event.amountCents / 100), []⟩ := by
  simp [awardPoints, Script.require, Script.modify, Script.state, Script.report, Script.ask,
    Script.ofExcept, Script.emission, Request.answer, Request.sent, hledger, bind, Script.bind]

section Loyalty

variable {b : Blueprint Ledger OrderEvent loyalty.states} {scope : Scope Ledger OrderEvent}
  (hb : loyalty.Compiles b)

include hb

/-- A placed order belongs to its customer. -/
lemma loyalty_selects (order : OrderPlaced) :
    b.selectors.get? (Message.type (OrderEvent.placed order)) = some OrderEvent.customerId :=
  (hb.selectors _).trans rfl

/-- The workflow of a customer awards a placed order, and takes a row of a member, or none, to a row
of a member. -/
lemma loyalty_upshot
    (hledger : scope.services.contains (.application Ledger.serviceName) = true)
    (order : OrderPlaced) (key : InstanceKey) (app : Ledger) :
    let paid := app.award order.customerId order.points
    let ordinal := memberStates.member.ordinal
    loyalty.upshot scope b (.placed order) key app none =
        ⟨.ok (.started key.correlationId memberStates.member), paid, [], some ordinal⟩ ∧
      loyalty.upshot scope b (.placed order) key app (some ordinal) =
        ⟨.ok (.transferred key.correlationId memberStates.member memberStates.member), paid, [],
          some ordinal⟩ := by
  have hstart : b.starts.get? (Message.type (OrderEvent.placed order)) =
      some ⟨memberStates.member, [awardPoints]⟩ := (hb.starts _).trans rfl
  have htransfer : b.transfers.get? (memberStates.member, Message.type (OrderEvent.placed order)) =
      some ⟨none, [awardPoints]⟩ := (hb.transfers _ _).trans rfl
  have hstate : loyalty.states.ofOrdinal? memberStates.member.ordinal =
      some memberStates.member := rfl
  have hemit : b.emit scope (.placed order) [awardPoints] app =
      ⟨.ok (), app.award order.customerId order.points, []⟩ := by
    simp only [Blueprint.emit, emitAll, emission_awardPoints hledger, List.append_nil]
    rfl
  constructor
  · simp only [upshot, hstart, hemit]
    rfl
  · simp only [upshot, hstate, htransfer, hemit]
    rfl

/-- A dispatch of a placed order that ends as prescribed awards the order and counts it, if the row
of the customer was in order. -/
lemma loyalty_counts
    (hledger : scope.services.contains (.application Ledger.serviceName) = true)
    {options : DispatchOptions} {order : OrderPlaced} {now : Timestamp} {app x : Ledger}
    {before after : Store} {result : Except EngineError (Outcome loyalty.states)} {n : Nat}
    (h : loyalty.Prescribes options scope b (.placed order) ⟨order.customerId, "loyalty"⟩ now app
      before result x after)
    (hrow : member order.customerId before = membership order.customerId n) :
    x = app.award order.customerId order.points ∧
      member order.customerId after = membership order.customerId (n + 1) := by
  obtain ⟨hstarted, htransferred⟩ :=
    loyalty_upshot hb hledger order ⟨order.customerId, "loyalty"⟩ app
  have hresult := h.result_eq
  have happ := h.upshot.app
  have hrecord : member order.customerId after =
      Outcome.left? ⟨order.customerId, "loyalty"⟩ (member order.customerId before) result :=
    h.record?_eq
  have hstate : before.state? ⟨order.customerId, "loyalty"⟩ =
      (member order.customerId before).map InstanceRecord.state := Store.state?_eq _ _
  rw [hstate, hrow] at hresult happ
  rw [hrow] at hrecord
  cases n with
  | zero =>
    have hnone : (membership order.customerId 0).map InstanceRecord.state = none := rfl
    rw [hnone, hstarted] at hresult happ
    rw [hresult] at hrecord
    exact ⟨happ, hrecord⟩
  | succ n =>
    have hsome : (membership order.customerId (n + 1)).map InstanceRecord.state =
        some memberStates.member.ordinal := rfl
    rw [hsome, htransferred] at hresult happ
    rw [hresult] at hrecord
    exact ⟨happ, hrecord⟩

end Loyalty

/-! ## Turns -/

variable (router : Router Ledger OrderEvent) (report : Report) {s : Delivery Ledger OrderEvent}

/-- The workflow of an order has nothing to do with customers. -/
lemma fulfilment_spares (event : OrderEvent) (hs : Trusted s.registry) :
    Unawarded s.toEngine
      (Host.deliverTo router event (report, s) (.workflow (fulfilment Ledger))).2.toEngine := by
  have hknown : Known (fulfilment Ledger) := .inl rfl
  obtain ⟨b, hcompile⟩ := fulfilment_compile
  rcases Host.deliverTo_prescribed router event report hknown.onlySends hcompile
      (hs.faithful _ hknown) hs.only with ⟨-, hstore, happ⟩ | ⟨-, id, result, -, hends⟩
  · exact ⟨happ, fun id => congrArg (member id) hstore⟩
  · obtain ⟨-, -, hledger⟩ := fulfilment_upshot (.of_compile hcompile) router.services_complete
      event ⟨id, "fulfilment"⟩ s.app (s.store.state? ⟨id, "fulfilment"⟩)
    refine ⟨hends.upshot.app.trans hledger, fun other => hends.elsewhere ?_⟩
    intro hkey
    have hname : "loyalty" ≠ "fulfilment" := by decide
    exact hname (congrArg InstanceKey.definition hkey)

/-- The workflow of a customer awards an order that is placed live, if the customer has an id that
is not blank, and else does nothing. -/
lemma loyalty_awards (hledger : Ledger.serviceName ∈ router.application) (order : OrderPlaced)
    (hs : Trusted s.registry) :
    Award (award? (.placed order) s.cancelled) s.toEngine
      (Host.deliverTo router (.placed order) (report, s) (.workflow loyalty)).2.toEngine := by
  have hknown : Known loyalty := .inr rfl
  obtain ⟨b, hcompile⟩ := loyalty_compile
  have hb : loyalty.Compiles b := .of_compile hcompile
  have hselect := loyalty_selects hb order
  rcases Host.deliverTo_prescribed router (.placed order) report hknown.onlySends hcompile
      (hs.faithful _ hknown) hs.only with ⟨hidle, hstore, happ⟩ | ⟨hlive, id, result, hid, hends⟩
  · have hnone : award? (.placed order) s.cancelled = none := by
      rcases hidle with hcancelled | ⟨e, he⟩
      · rw [hcancelled]
        rfl
      · cases hblank : isBlank order.customerId with
        | true => cases s.cancelled <;> simp [award?, placedOrder?, hblank]
        | false =>
          cases he.symm.trans (Blueprint.correlate_eq_ok_iff.2 ⟨_, hselect, hblank, rfl⟩)
    rw [hnone]
    exact ⟨happ, fun id => congrArg (member id) hstore⟩
  · obtain ⟨select, hselect', hblank, rfl⟩ := Blueprint.correlate_eq_ok_iff.1 hid
    cases hselect.symm.trans hselect'
    have hsome : award? (.placed order) s.cancelled = some order := by
      rw [hlive]
      have hfilled : isBlank order.customerId = false := hblank
      simp [award?, placedOrder?, hfilled]
    rw [hsome]
    have hpresent : router.scope.services.contains (.application Ledger.serviceName) = true :=
      Services.contains_application hledger
    refine ⟨fun n hrow => loyalty_counts hb hpresent hends hrow, fun other hother => ?_⟩
    exact hends.elsewhere fun hkey => hother (congrArg InstanceKey.correlationId hkey)

/-- No turn of a workflow cancels a delivery. -/
lemma turn_cancelled (event : OrderEvent) (hs : Trusted s.registry)
    {d : Definition Ledger OrderEvent} (hd : Known d) :
    (Host.deliverTo router event (report, s) (.workflow d)).2.cancelled = s.cancelled := by
  obtain ⟨b, hcompile⟩ := hd.compile
  obtain ⟨run, hsettled, -, hcancelled, -⟩ := Host.deliverTo_settled router event report
    hd.onlySends hcompile (hs.faithful d hd) hs.only
  exact hcancelled.trans hsettled.cancelled

/-! ## Deliveries and answers -/

variable {h : OrderHost}

/-- A delivery awards the order that it places, if there is one to award, and else does nothing that
concerns customers. -/
lemma deliver_awards (hh : Attended h) (hledger : Ledger.serviceName ∈ h.router.application)
    (event : OrderEvent) (cancelled : Bool) :
    let h' := (h.deliver event cancelled).2
    Attended h' ∧ h'.router = h.router ∧ Award (award? event cancelled) h.engine h'.engine := by
  obtain ⟨_, _, hdeliver, hattended, -⟩ := deliver_heard hh event cancelled
  cases hdeliver
  refine ⟨hattended, by rw [hh.deliver_eq], ?_⟩
  rw [hh.deliver_eq]
  let opened : Delivery Ledger OrderEvent := h.engine.delivery cancelled
  have hs : Trusted opened.registry := hh.trusted
  have hspared := fulfilment_spares h.router {} event hs
  cases event with
  | placed order =>
    let first :=
      Host.deliverTo h.router (.placed order) ({}, opened) (.workflow (fulfilment Ledger))
    have hs' : Trusted first.2.registry := hs.turn h.router (.placed order) {} (.inl rfl)
    have hawarded := loyalty_awards h.router first.1 hledger order hs'
    have hcancelled : first.2.cancelled = cancelled :=
      turn_cancelled h.router {} (.placed order) hs (.inl rfl)
    rw [hcancelled] at hawarded
    show Award _ h.engine
      (Host.deliverTo h.router (.placed order) first (.workflow loyalty)).2.toEngine
    cases haward : award? (.placed order) cancelled with
    | none =>
      rw [haward] at hawarded
      exact hspared.trans hawarded
    | some awarded =>
      rw [haward] at hawarded
      exact .of_unawarded hspared hawarded
  | _ => exact hspared

/-- Answering an envelope has nothing to do with customers. -/
lemma respond_awards (hh : Attended h) (hledger : Ledger.serviceName ∈ h.router.application)
    (e : Envelope) (cancelled : Bool) :
    let h' := Run.final (respond e cancelled h)
    Attended h' ∧ h'.router = h.router ∧ Unawarded h.engine h'.engine := by
  rcases respond_final e cancelled h with ⟨event, hanswer, hfinal⟩ | ⟨-, log, hfinal⟩
  · have hdelivered := deliver_awards hh hledger event cancelled
    rw [hfinal]
    -- No answer places an order.
    obtain ⟨-, ⟨-, id, rfl⟩ | ⟨-, id, rfl⟩ | ⟨-, id, tracking, rfl⟩⟩ := answer_cases hanswer
    all_goals exact hdelivered
  · rw [hfinal]
    exact ⟨⟨hh.handlers, hh.trusted⟩, rfl, rfl, fun _ => rfl⟩

/-! ## Runs -/

/-- The order that is placed live by an incident. -/
def Incident.order? : Incident → Option OrderPlaced
  | .deliver event cancelled => placedOrder? event cancelled
  | _ => none

/-- The order that is awarded for an incident. -/
def Incident.award? : Incident → Option OrderPlaced
  | .deliver event cancelled => Demo.award? event cancelled
  | _ => none

/-- An incident awards the order that it places, if there is one to award, and else does nothing
that concerns customers. -/
lemma step_awards {w : World} (hw : Attended w.host)
    (hledger : Ledger.serviceName ∈ w.host.router.application) (incident : Incident) :
    let h' := (w.step incident).host
    Attended h' ∧ h'.router = w.host.router ∧ Award incident.award? w.host.engine h'.engine := by
  cases incident with
  | deliver event cancelled => exact deliver_awards hw hledger event cancelled
  | respond e cancelled => exact respond_awards hw hledger e cancelled
  | drain | tick now => exact ⟨⟨hw.handlers, hw.trusted⟩, rfl, rfl, fun _ => rfl⟩

/-- An incident awards the order that it places, unless the customer is blank. -/
lemma Incident.award?_eq (incident : Incident) :
    incident.award? = incident.order?.filter fun order => !isBlank order.customerId := by
  cases incident <;> rfl

/-- The orders of a customer. -/
def ordersOf (customerId : String) (orders : List OrderPlaced) : List OrderPlaced :=
  orders.filter fun order => order.customerId = customerId

/-- One more order is one more of its customer, and of no other. -/
lemma ordersOf_concat (customerId : String) (orders : List OrderPlaced) (order : OrderPlaced) :
    ordersOf customerId (orders ++ [order]) =
      ordersOf customerId orders ++ if order.customerId = customerId then [order] else [] := by
  unfold ordersOf
  rw [List.filter_append]
  congr 1
  by_cases hid : order.customerId = customerId
  · rw [List.filter_cons_of_pos (by simpa using hid), if_pos hid, List.filter_nil]
  · rw [List.filter_cons_of_neg (by simpa using hid), if_neg hid, List.filter_nil]

/-- Whether the ledger and the rows of the customers match the orders that were awarded. -/
structure Tallied (orders : List OrderPlaced) (h : OrderHost) : Prop where
  attended : Attended h
  ledger : Ledger.serviceName ∈ h.router.application
  balances : ∀ id, h.engine.app.balance id = ((ordersOf id orders).map OrderPlaced.points).sum
  rows : ∀ id, member id h.engine.store = membership id (ordersOf id orders).length

namespace Tallied

variable {orders : List OrderPlaced} {w : World}

/-- Orders that are awarded are added to those of their customer. -/
lemma award {h' : OrderHost} {order? : Option OrderPlaced} (ht : Tallied orders h)
    (hattended : Attended h') (hrouter : h'.router = h.router)
    (haward : Award order? h.engine h'.engine) : Tallied (orders ++ order?.toList) h' := by
  have hledger : Ledger.serviceName ∈ h'.router.application := hrouter ▸ ht.ledger
  cases order? with
  | none =>
    rw [Option.toList_none, List.append_nil]
    refine ⟨hattended, hledger, fun id => ?_, fun id => (haward.rows id).trans (ht.rows id)⟩
    rw [haward.app]
    exact ht.balances id
  | some order =>
    rw [Option.toList_some]
    obtain ⟨happ, hrow⟩ := haward.here _ (ht.rows order.customerId)
    refine ⟨hattended, hledger, fun id => ?_, fun id => ?_⟩
    · rw [happ, Ledger.balance_award, ht.balances, ordersOf_concat]
      split
      · simp
      · simp
    · rw [ordersOf_concat]
      by_cases hid : order.customerId = id
      · subst hid
        rw [hrow, if_pos rfl, List.length_append, List.length_singleton]
      · rw [haward.elsewhere id (Ne.symm hid), ht.rows, if_neg hid, List.append_nil]

/-- Every incident keeps the tally. -/
lemma step (ht : Tallied orders w.host) (incident : Incident) :
    Tallied (orders ++ incident.award?.toList) (w.step incident).host := by
  obtain ⟨hattended, hrouter, haward⟩ := step_awards ht.attended ht.ledger incident
  exact ht.award hattended hrouter haward

/-- After any incidents the ledger and the rows tally with the orders that were awarded. -/
lemma run (ht : Tallied orders w.host) (incidents : List Incident) :
    Tallied (orders ++ incidents.filterMap Incident.award?) (w.run incidents).host := by
  unfold World.run
  induction incidents generalizing w orders with
  | nil =>
    rw [List.filterMap_nil, List.append_nil]
    exact ht
  | cons incident rest ih =>
    have hrest := ih (ht.step incident)
    rw [List.append_assoc] at hrest
    have hsplit : (incident :: rest).filterMap Incident.award? =
        incident.award?.toList ++ rest.filterMap Incident.award? := by
      rw [List.filterMap_cons]
      cases incident.award? <;> rfl
    rw [hsplit]
    exact hrest

end Tallied

/-- The orders that are awarded are those of customers whose ids are not blank. -/
lemma ordersOf_awarded (customerId : String) (incidents : List Incident) :
    ordersOf customerId (incidents.filterMap Incident.award?) =
      if isBlank customerId then [] else
        ordersOf customerId (incidents.filterMap Incident.order?) := by
  have hawarded : incidents.filterMap Incident.award? =
      (incidents.filterMap Incident.order?).filter fun order => !isBlank order.customerId := by
    rw [List.filter_filterMap]
    exact List.filterMap_congr fun incident _ => incident.award?_eq
  unfold ordersOf
  rw [hawarded, List.filter_filter]
  cases hblank : isBlank customerId with
  | true =>
    rw [if_pos rfl, List.filter_eq_nil_iff]
    intro order _ hkept
    obtain ⟨rfl, hfilled⟩ : order.customerId = customerId ∧ isBlank order.customerId = false := by
      simpa using hkept
    exact absurd (hblank.symm.trans hfilled) (by decide)
  | false =>
    rw [if_neg Bool.false_ne_true]
    apply List.filter_congr
    intro order _
    by_cases hid : order.customerId = customerId
    · simp [hid, hblank]
    · simp [hid]

/-- The points match the orders. To a new host with both workflows subscribed, and with the ledger
among its services, let events be delivered, live or cancelled, the outbox be handed out and
envelopes be answered in any order. Then every customer whose id is not blank has the points of the
orders that were placed live for it, each rounded down, and a row that counts these orders, or none
if there were none, whatever became of the orders themselves. A customer whose id is blank has
nothing, and only an order for another customer can change the ledger. -/
theorem points_match_orders (options : StoreOptions) (dispatch : DispatchOptions)
    (application : List String) (now : Timestamp)
    (hledger : Ledger.serviceName ∈ application) :
    ∃ host, subscribe (newHost { options } dispatch application now) = .ok () host ∧
      ∀ incidents : List Incident,
        let w := World.run { host } incidents
        (∀ customerId, isBlank customerId = false →
          let orders := ordersOf customerId (incidents.filterMap Incident.order?)
          w.host.engine.app.balance customerId = (orders.map OrderPlaced.points).sum ∧
            member customerId w.host.engine.store = membership customerId orders.length) ∧
        (∀ customerId, isBlank customerId = true →
          w.host.engine.app.balance customerId = 0 ∧
            member customerId w.host.engine.store = none) ∧
        ∀ incident : Incident,
          (∀ order, incident.order? = some order → isBlank order.customerId = true) →
            (w.step incident).host.engine.app = w.host.engine.app := by
  obtain ⟨host, hsubscribe, hattended, hrouter, registry, log, hengine⟩ :=
    subscribe_opens { options } dispatch application now
  have hopened : Tallied [] host := by
    refine ⟨hattended, hrouter ▸ hledger, fun id => ?_, fun id => ?_⟩
    · rw [hengine]
      rfl
    · rw [hengine]
      rfl
  refine ⟨host, hsubscribe, fun incidents => ?_⟩
  intro w
  have ht : Tallied (incidents.filterMap Incident.award?) w.host :=
    hopened.run (w := { host }) incidents
  refine ⟨fun customerId hfilled => ?named, fun customerId hblank => ?blank, fun incident => ?kept⟩
  case named =>
    intro orders
    have horders := ordersOf_awarded customerId incidents
    rw [hfilled, if_neg Bool.false_ne_true] at horders
    rw [ht.balances, ht.rows, horders]
    exact ⟨rfl, rfl⟩
  case blank =>
    have horders := ordersOf_awarded customerId incidents
    rw [hblank, if_pos rfl] at horders
    rw [ht.balances, ht.rows, horders]
    exact ⟨rfl, rfl⟩
  case kept =>
    intro hblank
    have hnone : incident.award? = none := by
      rw [incident.award?_eq, Option.filter_eq_none_iff]
      intro order horder
      simp [hblank order horder]
    obtain ⟨-, -, haward⟩ := step_awards ht.attended ht.ledger incident
    rw [hnone] at haward
    exact haward.app

namespace Rewarding

/-- An order is repeated, one has no id of its own, one comes too late, and one has no customer. -/
def incidents : List Incident := [
  .deliver (.placed ⟨"o-1", "alice", 2599⟩) false,
  .deliver (.placed ⟨"o-1", "alice", 199⟩) false,
  .deliver (.placed ⟨" ", "alice", 350⟩) false,
  .drain,
  .deliver (.placed ⟨"o-2", "alice", 9900⟩) true,
  .respond (Notice.reserve.envelope "o-1") false,
  .deliver (.placed ⟨"o-3", "", 9900⟩) false]

/-- All orders count but the last two. -/
theorem orders_rewarded :
    ∃ host, subscribe (newHost {} {} [Ledger.serviceName] 0) = .ok () host ∧
      let last := (World.run { host } incidents).host.engine
      last.app.balance "alice" = 25 + 1 + 3 ∧
        member "alice" last.store = membership "alice" 3 ∧
        last.app.balance "" = 0 ∧
        ((World.run { host } incidents).step
          (.deliver (.placed ⟨"o-4", "", 9900⟩) false)).host.engine.app = last.app := by
  obtain ⟨host, hsubscribe, hrun⟩ := points_match_orders {} {} [Ledger.serviceName] 0 (by decide)
  obtain ⟨hnamed, hblank, hkept⟩ := hrun incidents
  obtain ⟨hbalance, hrow⟩ := hnamed "alice" (by decide)
  have horders : ordersOf "alice" (incidents.filterMap Incident.order?) =
      [⟨"o-1", "alice", 2599⟩, ⟨"o-1", "alice", 199⟩, ⟨" ", "alice", 350⟩] := by decide
  rw [horders] at hbalance hrow
  refine ⟨host, hsubscribe, hbalance, hrow, (hblank "" (by decide)).1, hkept _ ?_⟩
  intro order horder
  cases horder
  decide

end Rewarding

end Demo

end Saga
