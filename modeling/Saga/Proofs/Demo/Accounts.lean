import Saga.Proofs.Demo.Hearing

/-!
# Accounts of orders

The messages that were ever committed about an order are in an account with its row (`Account`):
each stage has its own list of them. Events are delivered, the outbox is handed out and envelopes
are answered, in whatever order and with whatever cancelled (`Incident`); every step takes an order
from one account to another (`World.Accounted.step`), so its messages match its row all the time
(`messages_match_row`).
-/

namespace Saga.Demo

/-! ## Accounts -/

/-- How far an order has come, and what was sent about it on the way. -/
abbrev Progress := Option Stage × List Notice

/-- The progress of an order after one more event about it. -/
def Progress.after (p : Progress) (event : OrderEvent) : Progress :=
  match advance p.1 event with
  | some (next, more) => (some next, p.2 ++ more)
  | none => p

/-- What is heard about an order is what brings it on. -/
lemma hear_progress (p : Progress) (event : OrderEvent) :
    ∃ more, hear (p.1.map Stage.ordinal) event = ((p.after event).1.map Stage.ordinal, more) ∧
      (p.after event).2 = p.2 ++ more := by
  have hrow : advanceRow (p.1.map Stage.ordinal) event = advance p.1 event := by
    cases p.1 with
    | none => rfl
    | some stage => rw [Option.map_some, advanceRow, Stage.ofOrdinal?_ordinal, Option.bind_some]
  rw [hear, hrow, Progress.after]
  cases advance p.1 event with
  | none => exact ⟨[], rfl, (List.append_nil _).symm⟩
  | some step => exact ⟨step.2, rfl, rfl⟩

/-- Which notices have been given of an order that has come so far. -/
inductive Account : Option Stage → List Notice → Prop where
  | unknown : Account none []
  | placed : Account (some .placed) [.reserve]
  | reserved : Account (some .reserved) [.reserve, .capture]
  | paid : Account (some .paid) [.reserve, .capture, .ship, .confirmed]
  | shipped (tracking : String) :
    Account (some .shipped) [.reserve, .capture, .ship, .confirmed, .completed tracking]
  /-- Cancelled before the goods were reserved. -/
  | voided : Account (some .cancelled) [.reserve, .voided]
  /-- Cancelled when the goods were reserved. -/
  | released : Account (some .cancelled) [.reserve, .capture, .release, .voided]

variable {stage : Option Stage} {notices : List Notice} {p p' : Progress}

/-- An event that moves an order takes it to the account that its next stage is to have. -/
lemma Account.advance {event : OrderEvent} {next : Stage} {more : List Notice}
    (h : Account stage notices) (hadvance : advance stage event = some (next, more)) :
    Account (some next) (notices ++ more) := by
  cases h <;> cases event <;> cases hadvance
  case unknown.placed.refl => exact .placed
  case placed.stockReserved.refl => exact .reserved
  case placed.cancelled.refl => exact .voided
  case reserved.paymentCaptured.refl => exact .paid
  case reserved.cancelled.refl => exact .released
  case paid.shipped.refl e => exact .shipped e.tracking

/-- An event takes an account to an account. -/
lemma Account.after (h : Account p.1 p.2) (event : OrderEvent) :
    Account (p.after event).1 (p.after event).2 := by
  unfold Progress.after
  cases hadvance : Demo.advance p.1 event with
  | none => exact h
  | some step => exact h.advance hadvance

/-- No message type stands twice in an account. -/
lemma Account.nodup (h : Account stage notices) (orderId : String) :
    (notices.map fun notice => (notice.envelope orderId).messageType).Nodup := by
  cases h <;> simp [Notice.envelope, Payload.typeName]

/-- An order that is called off is not completed. -/
lemma Account.voided_or_completed (h : Account stage notices) (orderId : String) :
    Payload.typeName OrderVoided ∉
        notices.map (fun notice => (notice.envelope orderId).messageType) ∨
      Payload.typeName OrderCompleted ∉
        notices.map fun notice => (notice.envelope orderId).messageType := by
  cases h <;> simp [Notice.envelope, Payload.typeName]

/-- What can become of an order at a time: nothing, or what one event about it makes of it. -/
inductive Turn (p : Progress) : Progress → Prop where
  | stays : Turn p p
  | hears (event : OrderEvent) : Turn p (p.after event)

/-- No event moves an order that was shipped or cancelled. -/
lemma Turn.eq_of_final (hturn : Turn p p')
    (hfinal : p.1 = some .shipped ∨ p.1 = some .cancelled) : p' = p := by
  cases hturn with
  | stays => rfl
  | hears event =>
    rcases hfinal with h | h
    all_goals cases event <;> simp only [Progress.after, h, advance]

/-- The goods are put back when an order is cancelled for which they were reserved. -/
lemma Turn.count_release (hturn : Turn p p') :
    p'.2.count .release = p.2.count .release +
      if p.1 = some .reserved ∧ p'.1 = some .cancelled then 1 else 0 := by
  obtain ⟨stage, notices⟩ := p
  have hstays : ¬ (stage = some .reserved ∧ stage = some .cancelled) := by
    rintro ⟨rfl, hcancelled⟩
    cases hcancelled
  cases hturn with
  | stays => rw [if_neg hstays, Nat.add_zero]
  | hears event =>
    unfold Progress.after
    cases hadvance : advance stage event with
    | none => rw [if_neg hstays, Nat.add_zero]
    | some step =>
      rw [List.count_append]
      congr 1
      cases stage with
      | none => cases event <;> cases hadvance; rfl
      | some stage => cases stage <;> cases event <;> cases hadvance <;> rfl

/-! ## Messages -/

/-- The order that an envelope is about, if its payload says so. -/
def orderOf (e : Envelope) : Option String := (readOrderFields e.payload).toOption

/-- The messages about an order. -/
def about (orderId : String) (messages : List Envelope) : List Envelope :=
  messages.filter fun e => orderOf e = some orderId

/-- The envelope of a notice names the order that the notice is about. -/
lemma orderOf_envelope (orderId : String) (notice : Notice) :
    orderOf (notice.envelope orderId) = some orderId := by
  cases notice <;> rfl

/-- What concerns an order in two parts of a list is what concerns it in each. -/
lemma about_append (orderId : String) (messages more : List Envelope) :
    about orderId (messages ++ more) = about orderId messages ++ about orderId more :=
  List.filter_append ..

/-- The notices of an order all concern it. -/
lemma about_notices (orderId : String) (notices : List Notice) :
    about orderId (notices.map (Notice.envelope orderId)) =
      notices.map (Notice.envelope orderId) := by
  apply List.filter_eq_self.2
  intro e hmem
  obtain ⟨notice, -, rfl⟩ := List.mem_map.1 hmem
  simp [orderOf_envelope]

/-- The notices of another order do not concern it. -/
lemma about_notices_of_ne {orderId other : String} (hne : orderId ≠ other) (notices : List Notice) :
    about orderId (notices.map (Notice.envelope other)) = [] := by
  apply List.filter_eq_nil_iff.2
  intro e hmem
  obtain ⟨notice, -, rfl⟩ := List.mem_map.1 hmem
  simp [orderOf_envelope, hne.symm]

/-- Whether an order has come so far, going by its row and by all messages. -/
structure Accounted (orderId : String) (store : Store) (messages : List Envelope) (p : Progress) :
    Prop where
  row : orderRow store orderId = p.1.map Stage.ordinal
  account : Account p.1 p.2
  messages : about orderId messages = p.2.map (Notice.envelope orderId)

section Effect

variable {orderId : String} {store store' : Store} {handed : List Envelope} {event : OrderEvent}

/-- An event that reaches an order brings it on. -/
lemma Accounted.heard (h : Accounted orderId store (handed ++ store.outbox) p)
    (hid : orderId = event.orderId) (hheard : Heard event store store') :
    Accounted orderId store' (handed ++ store'.outbox) (p.after event) := by
  subst hid
  obtain ⟨more, hhear, hmore⟩ := hear_progress p event
  rw [← h.row] at hhear
  refine ⟨?_, h.account.after event, ?_⟩
  · rw [hheard.rows, if_pos rfl, hhear]
  · rw [hheard.outbox, hhear, ← List.append_assoc, about_append, h.messages, about_notices, hmore,
      List.map_append]

/-- What an event does to the store takes an order from one account to another. -/
lemma Accounted.effect (h : Accounted orderId store (handed ++ store.outbox) p) {cancelled : Bool}
    (heffect : Effect event cancelled store store') :
    ∃ p', Accounted orderId store' (handed ++ store'.outbox) p' ∧ Turn p p' := by
  unfold Effect at heffect
  split at heffect
  · by_cases hid : orderId = event.orderId
    · exact ⟨p.after event, h.heard hid heffect, .hears event⟩
    -- The event is about another order, and so is whatever is sent.
    · refine ⟨p, ⟨?_, h.account, ?_⟩, .stays⟩
      · rw [heffect.rows, if_neg hid, h.row]
      · rw [heffect.outbox, ← List.append_assoc, about_append, about_notices_of_ne hid,
          List.append_nil, h.messages]
  · refine ⟨p, ⟨(heffect.rows orderId).trans h.row, h.account, ?_⟩, .stays⟩
    rw [heffect.outbox, h.messages]

end Effect

/-! ## Runs -/

/-- What can happen to a host that was opened. -/
inductive Incident where
  | deliver (event : OrderEvent) (cancelled : Bool)
  | drain
  | respond (e : Envelope) (cancelled : Bool)
  | tick (now : Timestamp)

/-- A host and the messages that it has handed out. -/
structure World where
  host : OrderHost
  handed : List Envelope := []

namespace World

/-- What an incident makes of a host. What was delivered or answered may have failed. -/
def step (w : World) : Incident → World
  | .deliver event cancelled => { w with host := Run.final (Demo.deliver event cancelled w.host) }
  | .drain => ⟨w.host.drain.2, w.handed ++ w.host.drain.1⟩
  | .respond e cancelled => { w with host := Run.final (Demo.respond e cancelled w.host) }
  | .tick now => { w with host := { w.host with engine := { w.host.engine with now } } }

/-- The world after incidents, one after the other. -/
def run (w : World) (incidents : List Incident) : World := incidents.foldl step w

/-- All messages that were ever committed. -/
def committed (w : World) : List Envelope := w.handed ++ w.host.engine.store.outbox

/-- The ordinal in the row of an order. -/
def row (w : World) (orderId : String) : Option Int32 := orderRow w.host.engine.store orderId

/-- How many messages of a type were committed about an order. -/
def tally (w : World) (α : Type) [Payload α] (orderId : String) : Nat :=
  (about orderId w.committed).countP fun e => e.messageType = Payload.typeName α

/-- Whether an order is accounted for by its row and the messages that were ever committed. -/
def Accounted (w : World) (orderId : String) (p : Progress) : Prop :=
  Demo.Accounted orderId w.host.engine.store w.committed p

variable {w : World} {orderId : String}

/-- An incident keeps a host attended and takes an order from one account to another. -/
lemma Accounted.step (hw : Attended w.host) (h : w.Accounted orderId p) (incident : Incident) :
    Attended (w.step incident).host ∧
      ∃ p', (w.step incident).Accounted orderId p' ∧ Turn p p' := by
  cases incident with
  | deliver event cancelled =>
    obtain ⟨report, h', hdeliver, hattended, heffect⟩ := deliver_heard hw event cancelled
    simp only [World.step, hdeliver]
    exact ⟨hattended, Demo.Accounted.effect h heffect⟩
  | drain =>
    refine ⟨⟨hw.handlers, hw.trusted⟩, p, ⟨h.row, h.account, ?_⟩, .stays⟩
    have hcommitted : (w.step .drain).committed = w.committed := List.append_nil _
    rw [hcommitted]
    exact h.messages
  | respond e cancelled =>
    obtain ⟨hattended, heffect⟩ := respond_heard hw e cancelled
    refine ⟨hattended, ?_⟩
    have hkept : (w.step (.respond e cancelled)).host.engine.store = w.host.engine.store →
        (w.step (.respond e cancelled)).Accounted orderId p := by
      intro hstore
      unfold World.Accounted committed
      rw [hstore]
      exact h
    cases hanswer : answer e with
    | error fault =>
      rw [hanswer] at heffect
      exact ⟨p, hkept heffect, .stays⟩
    | ok event? =>
      cases event? with
      | none =>
        rw [hanswer] at heffect
        exact ⟨p, hkept heffect, .stays⟩
      | some event =>
        rw [hanswer] at heffect
        exact Demo.Accounted.effect h heffect
  | tick now => exact ⟨⟨hw.handlers, hw.trusted⟩, p, h, .stays⟩

/-- A live event about an order brings it on. -/
lemma Accounted.deliver (hw : Attended w.host) (h : w.Accounted orderId p) {event : OrderEvent}
    (hid : orderId = event.orderId) (hblank : isBlank orderId = false) :
    (w.step (.deliver event false)).Accounted orderId (p.after event) := by
  obtain ⟨report, h', hdeliver, -, heffect⟩ := deliver_heard hw event false
  have hreaches : reaches event false = true := by simp [reaches, ← hid, hblank]
  unfold Effect at heffect
  rw [if_pos hreaches] at heffect
  simp only [World.step, hdeliver]
  exact Demo.Accounted.heard h hid heffect

/-- After any incidents an order is accounted for. -/
lemma Accounted.run (hw : Attended w.host) (h : w.Accounted orderId p)
    (incidents : List Incident) :
    Attended (w.run incidents).host ∧ ∃ p', (w.run incidents).Accounted orderId p' := by
  unfold World.run
  induction incidents generalizing w p with
  | nil => exact ⟨hw, p, h⟩
  | cons incident rest ih =>
    obtain ⟨hattended, p', haccounted, -⟩ := h.step hw incident
    exact ih hattended haccounted

/-- What was shipped or cancelled stays as it is. -/
lemma Accounted.run_of_final (hw : Attended w.host) (h : w.Accounted orderId p)
    (hfinal : p.1 = some .shipped ∨ p.1 = some .cancelled) (incidents : List Incident) :
    (w.run incidents).Accounted orderId p := by
  unfold World.run
  induction incidents generalizing w with
  | nil => exact h
  | cons incident rest ih =>
    obtain ⟨hattended, p', haccounted, hturn⟩ := h.step hw incident
    rw [hturn.eq_of_final hfinal] at haccounted
    exact ih hattended haccounted

/-- The row of an order tells the stage on its account. -/
lemma Accounted.row_eq_iff (h : w.Accounted orderId p) (other : Stage) :
    w.row orderId = some other.ordinal ↔ p.1 = some other := by
  have hrow : w.row orderId = p.1.map Stage.ordinal := h.row
  rw [hrow, Option.map_eq_some_iff]
  constructor
  · rintro ⟨s, hstage, hordinal⟩
    rw [hstage, Stage.ordinal_injective hordinal]
  · exact fun hstage => ⟨other, hstage, rfl⟩

/-- As many releases were sent for an order as there are on its account. -/
lemma Accounted.tally_release (h : w.Accounted orderId p) :
    w.tally ReleaseStock orderId = p.2.count .release := by
  unfold tally
  rw [h.messages, List.countP_map, List.count]
  congr 1
  funext notice
  cases notice <;> simp [Notice.envelope, Payload.typeName]

/-- A type of messages that no notice on the account has was never sent for the order. -/
lemma Accounted.tally_eq_zero (h : w.Accounted orderId p) {α : Type} [Payload α]
    (hnone : Payload.typeName α ∉ p.2.map fun notice => (notice.envelope orderId).messageType) :
    w.tally α orderId = 0 := by
  unfold tally
  rw [h.messages, List.countP_map]
  apply List.countP_eq_zero.2
  intro notice hmem htype
  exact hnone (List.mem_map.2 ⟨notice, hmem, of_decide_eq_true htype⟩)

end World

/-- The messages about an order match its row. To a new host with both workflows subscribed, let
events be delivered, live or cancelled, the outbox be handed out and envelopes be answered in any
order. Then the messages that were ever committed about an order are those of the account of its
row, each of a type of its own, and never is an order both called off and completed. A live event
about an order moves its row as far as its stage says. With any further incident the goods are put
back just when an order is cancelled for which they were reserved; and an order that was shipped or
cancelled stays so, and nothing is sent about it. -/
theorem messages_match_row (options : StoreOptions) (dispatch : DispatchOptions)
    (application : List String) (now : Timestamp) :
    ∃ host, subscribe (newHost { options } dispatch application now) = .ok () host ∧
      ∀ (incidents : List Incident) (orderId : String),
        let w := World.run { host } incidents
        ∃ stage notices, w.row orderId = stage.map Stage.ordinal ∧ Account stage notices ∧
          about orderId w.committed = notices.map (Notice.envelope orderId) ∧
          ((about orderId w.committed).map Envelope.messageType).Nodup ∧
          (w.tally OrderVoided orderId = 0 ∨ w.tally OrderCompleted orderId = 0) ∧
          (∀ event, orderId = event.orderId → isBlank orderId = false →
            (w.step (.deliver event false)).row orderId =
              (Progress.after (stage, notices) event).1.map Stage.ordinal) ∧
          (∀ incident, (w.step incident).tally ReleaseStock orderId =
            w.tally ReleaseStock orderId +
              if w.row orderId = some Stage.reserved.ordinal ∧
                (w.step incident).row orderId = some Stage.cancelled.ordinal then 1 else 0) ∧
          (stage = some .shipped ∨ stage = some .cancelled → ∀ later,
            (w.run later).row orderId = w.row orderId ∧
              about orderId (w.run later).committed = about orderId w.committed) := by
  obtain ⟨host, hsubscribe, hattended, hstore⟩ :=
    subscribe_newHost { options } dispatch application now
  refine ⟨host, hsubscribe, fun incidents orderId => ?_⟩
  intro w
  have hopened : World.Accounted { host } orderId (none, []) := by
    unfold World.Accounted World.committed
    rw [hstore]
    exact ⟨rfl, .unknown, rfl⟩
  obtain ⟨hw, ⟨stage, notices⟩, h⟩ := hopened.run hattended incidents
  refine ⟨stage, notices, h.row, h.account, h.messages, ?types, ?once, ?moves, ?released, ?final⟩
  case types =>
    rw [h.messages, List.map_map]
    exact h.account.nodup orderId
  case once => exact (h.account.voided_or_completed orderId).imp h.tally_eq_zero h.tally_eq_zero
  case moves => exact fun event hid hblank => (h.deliver hw hid hblank).row
  case released =>
    intro incident
    obtain ⟨-, p', h', hturn⟩ := h.step hw incident
    simp only [w, h.tally_release, h'.tally_release, hturn.count_release, h.row_eq_iff,
      h'.row_eq_iff]
  case final =>
    intro hfinal later
    have hlater := h.run_of_final hw hfinal later
    exact ⟨hlater.row.trans h.row.symm, hlater.messages.trans h.messages.symm⟩

end Saga.Demo
