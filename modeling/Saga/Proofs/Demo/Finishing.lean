import Saga.Program
import Saga.Proofs.Demo.Requests

/-!
# Orders finish

A round of the relay hands out the outbox and answers every message in it, so what it does to an
order depends on nothing but the messages about this order (`answered`). An order goes through few
such rounds before nothing is sent about it any more (`Course`), and the relay ends when all orders
have come to the end of their courses (`Tracked.relay`). So every order that was placed is shipped
in the end, or called off if it was cancelled after that (`replay_finishes`).
-/

namespace Saga.Demo

/-! ## The relay with a record -/

/-- Relays like `relay`, and tells all messages that were handed out. -/
def recordedRelay (cancelled : Bool) (before : Nat) :
    (rounds : Nat) → OrderRun (RelayEnd × List Envelope)
  | 0 => return (.busy before (← get).engine.store.outbox.length, [])
  | rounds + 1 => do
    if cancelled then throw .cancelled
    let messages ← drain
    if messages.isEmpty then return (.drained before, [])
    messages.forM fun e => discard (respond e cancelled)
    let (ending, later) ← recordedRelay cancelled (before + 1) rounds
    return (ending, messages ++ later)

/-- Delivers the events and relays what comes out of them, and tells all messages that were handed
out. -/
def recordedReplay (events : List OrderEvent) : OrderRun (RelayEnd × List Envelope) := do
  events.forM fun event => discard (deliver event false)
  recordedRelay false 0 Program.maxRounds

/-- The record changes nothing else. -/
lemma relay_eq (cancelled : Bool) (before rounds : Nat) :
    relay cancelled before rounds = Prod.fst <$> recordedRelay cancelled before rounds := by
  induction rounds generalizing before with
  | zero => rfl
  | succ rounds ih =>
    cases cancelled with
    | true => rfl
    | false =>
      simp only [relay, recordedRelay, ih, Bool.false_eq_true, if_false, map_bind]
      congr 1
      funext messages
      split
      · rfl
      · simp only [map_bind, bind_pure_comp, Functor.map_map]

/-- A relay ends as its record says. -/
lemma relay_of_recorded {cancelled : Bool} {before rounds : Nat} {ending : RelayEnd}
    {handed : List Envelope} {h last : OrderHost}
    (hrecorded : recordedRelay cancelled before rounds h = .ok (ending, handed) last) :
    relay cancelled before rounds h = .ok ending last := by
  rw [relay_eq]
  show EStateM.map Prod.fst _ h = _
  unfold EStateM.map
  rw [hrecorded]

/-- A replay is what is left of its record without the messages that were handed out. -/
lemma replay_eq (events : List OrderEvent) :
    Program.replay events = Prod.fst <$> recordedReplay events := by
  simp only [Program.replay, recordedReplay, relay_eq, map_bind]

/-! ## Courses -/

/-- What comes of an order in a round: its notices are answered. -/
def answered (orderId : String) (p : Progress) : Progress :=
  (p.2.filterMap (Notice.reply orderId)).foldl Progress.after (p.1, [])

/-- Whether an order comes to a final stage in at most so many rounds, in which these notices are
given in all. -/
inductive Course (orderId : String) : Nat → Progress → Option Stage → List Notice → Prop where
  | done {rounds stage} : Course orderId rounds (stage, []) stage []
  | round {rounds p final rest} : Course orderId rounds (answered orderId p) final rest →
    Course orderId (rounds + 1) p final (p.2 ++ rest)

namespace Course

variable {orderId : String} {rounds : Nat} {p : Progress} {stage final : Option Stage}
  {notices : List Notice}

/-- A course goes on from what is answered in its first round. -/
lemma next (h : Course orderId (rounds + 1) p final notices) :
    ∃ rest, Course orderId rounds (answered orderId p) final rest ∧ notices = p.2 ++ rest := by
  cases h with
  | done => exact ⟨[], .done, rfl⟩
  | round hrest => exact ⟨_, hrest, rfl⟩

/-- A course without rounds has nothing to answer. -/
lemma pending_eq_nil (h : Course orderId 0 p final notices) : p.2 = [] := by
  cases h
  rfl

/-- Nothing comes of nothing. -/
lemma of_nil (h : Course orderId rounds (stage, []) final notices) :
    final = stage ∧ notices = [] := by
  induction rounds generalizing notices with
  | zero =>
    cases h
    exact ⟨rfl, rfl⟩
  | succ rounds ih =>
    obtain ⟨rest, hrest, rfl⟩ := h.next
    exact ih hrest

/-- A new order is shipped. -/
lemma placed (orderId : String) :
    Course orderId 4 (some .placed, [.reserve]) (some .shipped)
      [.reserve, .capture, .ship, .confirmed, .completed ("TRK-" ++ orderId)] :=
  .round (.round (.round (.round .done)))

/-- Nothing more comes of an order that was cancelled before its goods were reserved. -/
lemma voided (orderId : String) :
    Course orderId 4 (some .cancelled, [.reserve, .voided]) (some .cancelled)
      [.reserve, .voided] :=
  .round .done

end Course

/-! ## Rounds -/

/-- A relay ends when the outbox is empty. -/
lemma recordedRelay_of_empty {h : OrderHost} (hempty : h.engine.store.outbox = [])
    (before rounds : Nat) :
    recordedRelay false before (rounds + 1) h = .ok (.drained before, []) h.drain.2 := by
  have hdrain : drain h = .ok [] h.drain.2 := congrArg (EStateM.Result.ok · h.drain.2) hempty
  simp only [recordedRelay, Bool.false_eq_true, if_false, bind, EStateM.bind, hdrain]
  rfl

/-- A relay hands out the whole outbox in a round and goes on with what comes of it. -/
lemma recordedRelay_of_round {h h' h'' : OrderHost} (hsome : h.engine.store.outbox ≠ [])
    {before rounds : Nat} {ending : RelayEnd} {later : List Envelope}
    (hround : h.engine.store.outbox.forM (fun e => discard (respond e false)) h.drain.2 =
      .ok () h')
    (hrest : recordedRelay false (before + 1) rounds h' = .ok (ending, later) h'') :
    recordedRelay false before (rounds + 1) h =
      .ok (ending, h.engine.store.outbox ++ later) h'' := by
  have hdrain : drain h = .ok h.engine.store.outbox h.drain.2 := rfl
  have hfull : h.engine.store.outbox.isEmpty = false := by simpa using hsome
  simp only [recordedRelay, Bool.false_eq_true, if_false, bind, EStateM.bind, hdrain, hfull, hround,
    hrest]
  rfl

namespace Tracked

variable {stages : String → Option Stage} {events : List OrderEvent} {h : OrderHost}

/-- A round answers the notices of every order. -/
lemma round (ht : Tracked stages events h) :
    ∃ h' more, h.engine.store.outbox.forM (fun e => discard (respond e false)) h.drain.2 =
        .ok () h' ∧
      Tracked (fun id => (progress (stages id) events id).1) more h' ∧
      ∀ id, progress (progress (stages id) events id).1 more id =
        answered id (progress (stages id) events id) := by
  obtain ⟨letters, houtbox, hids, hnotices⟩ := ht.outbox
  have hdrained : Tracked (fun id => (progress (stages id) events id).1) [] h.drain.2 :=
    ⟨⟨ht.attended.handlers, ht.attended.trusted⟩, ht.rows, [], rfl, nofun, fun _ => rfl⟩
  obtain ⟨h', hrun, hlast⟩ := hdrained.respondAll hids
  rw [houtbox]
  refine ⟨h', letters.filterMap Letter.reply, hrun, hlast, fun id => ?_⟩
  rw [progress, filter_replies, hnotices]
  rfl

/-- The relay ends when nothing is in the outbox. Then all orders are at the end of their courses.
-/
lemma relay_of_empty (ht : Tracked stages events h) (hempty : h.engine.store.outbox = [])
    {n : Nat} {final : String → Option Stage} {notices : String → List Notice}
    (hcourses : ∀ id, Course id n (progress (stages id) events id) (final id) (notices id))
    (before rounds : Nat) :
    recordedRelay false before (rounds + 1) h = .ok (.drained before, []) h.drain.2 ∧
      ∀ id, orderRow h.engine.store id = (final id).map Stage.ordinal ∧ notices id = [] := by
  refine ⟨recordedRelay_of_empty hempty before rounds, fun id => ?_⟩
  obtain ⟨letters, houtbox, -, hnotices⟩ := ht.outbox
  rw [hempty, eq_comm, List.map_eq_nil_iff] at houtbox
  have hcourse := hcourses id
  have hnone : progress (stages id) events id = ((progress (stages id) events id).1, []) := by
    refine Prod.ext rfl ?_
    rw [← hnotices, houtbox]
    rfl
  rw [hnone] at hcourse
  obtain ⟨hfinal, hall⟩ := hcourse.of_nil
  rw [hfinal]
  exact ⟨ht.rows id, hall⟩

/-- The relay ends when all orders have come to the end of their courses. -/
lemma relay {rounds n : Nat} (hlt : n < rounds) {final : String → Option Stage}
    {notices : String → List Notice} (ht : Tracked stages events h)
    (hcourses : ∀ id, Course id n (progress (stages id) events id) (final id) (notices id))
    (before : Nat) :
    ∃ k handed h', recordedRelay false before rounds h = .ok (.drained (before + k), handed) h' ∧
      k ≤ n ∧ h'.engine.store.outbox = [] ∧ ∀ id,
        orderRow h'.engine.store id = (final id).map Stage.ordinal ∧
        about id handed = (notices id).map (Notice.envelope id) := by
  induction rounds generalizing n stages events h notices before with
  | zero => exact absurd hlt n.not_lt_zero
  | succ rounds ih =>
    obtain ⟨letters, houtbox, -, hnotices⟩ := ht.outbox
    have hpending : ∀ id, about id h.engine.store.outbox =
        (progress (stages id) events id).2.map (Notice.envelope id) := by
      intro id
      rw [houtbox, about_letters, hnotices]
    cases letters with
    | nil =>
      obtain ⟨hrun, hends⟩ := ht.relay_of_empty houtbox hcourses before rounds
      refine ⟨0, [], h.drain.2, hrun, n.zero_le, rfl, fun id => ⟨(hends id).1, ?_⟩⟩
      rw [(hends id).2]
      rfl
    | cons letter rest =>
      have hsome : h.engine.store.outbox ≠ [] := by
        rw [houtbox]
        exact List.cons_ne_nil _ _
      cases n with
      | zero =>
        -- An order at the end of its course has no notice left, but this letter is one.
        have hnone : noticesOf letter.1 (letter :: rest) = [] :=
          (hnotices letter.1).trans (hcourses letter.1).pending_eq_nil
        simp [noticesOf] at hnone
      | succ n =>
        obtain ⟨next, more, hround, hnext, hanswered⟩ := ht.round
        choose later hlater using fun id => (hcourses id).next
        obtain ⟨k, handed, h', hrun, hk, hempty, hends⟩ := ih (Nat.lt_of_succ_lt_succ hlt) hnext
          (fun id => by rw [hanswered]; exact (hlater id).1) (before + 1)
        refine ⟨k + 1, h.engine.store.outbox ++ handed, h', ?run, Nat.succ_le_succ hk, hempty, ?_⟩
        case run =>
          rw [recordedRelay_of_round hsome hround hrun, Nat.add_right_comm]
          rfl
        · intro id
          refine ⟨(hends id).1, ?_⟩
          rw [about_append, hpending, (hends id).2, (hlater id).2, List.map_append]

end Tracked

/-! ## Replays -/

/-- The course of an order from what was requested. -/
lemma Requested.course {orderId : String} {events : List OrderEvent} {p : Progress}
    (h : Requested orderId events p) :
    ∃ final notices, Course orderId 4 p final notices ∧
      (CalledOff orderId events → final = some .cancelled ∧ notices = [.reserve, .voided]) ∧
      (Placed orderId events → ¬ CalledOff orderId events → final = some .shipped ∧
        notices = [.reserve, .capture, .ship, .confirmed, .completed ("TRK-" ++ orderId)]) ∧
      (¬ Placed orderId events → final = none ∧ notices = []) := by
  cases h with
  | unknown hnone =>
    refine ⟨none, [], .done, fun hoff => ?_, fun hplaced => ?_, fun _ => ⟨rfl, rfl⟩⟩
    · exact absurd (placed_of_calledOff hoff) hnone
    · exact absurd hplaced hnone
  | placed hplaced hstands =>
    exact ⟨_, _, .placed orderId, (absurd · hstands), fun _ _ => ⟨rfl, rfl⟩, (absurd hplaced ·)⟩
  | voided hoff =>
    exact ⟨_, _, .voided orderId, fun _ => ⟨rfl, rfl⟩, fun _ => (absurd hoff ·),
      (absurd (placed_of_calledOff hoff) ·)⟩

/-- Orders finish. To a new host with both workflows subscribed, let any orders be placed and
cancelled, all of them with ids that are not blank, and let the relay then answer the outbox round
by round. It ends after at most four rounds, with nothing left. An order that was placed is called
off in the end if it was cancelled after its first placing, and shipped otherwise, and an order that
was never placed has no row. In all, the messages about an order that was shipped are those of its
whole way, with one completion and its tracking number; about an order that was called off there are
the command to reserve the goods and one notice that it is void; and about others there are none. -/
theorem replay_finishes (options : StoreOptions) (dispatch : DispatchOptions)
    (application : List String) (now : Timestamp) {events : List OrderEvent}
    (hrequests : ∀ event ∈ events, event.IsRequest)
    (hids : ∀ event ∈ events, isBlank event.orderId = false) :
    ∃ host, subscribe (newHost { options } dispatch application now) = .ok () host ∧
      ∃ rounds handed last, Program.replay events host = .ok (.drained rounds) last ∧
        recordedReplay events host = .ok (.drained rounds, handed) last ∧
        rounds ≤ 4 ∧ last.engine.store.outbox = [] ∧
        ∀ id,
          (CalledOff id events →
            orderRow last.engine.store id = some Stage.cancelled.ordinal ∧
            about id handed = [Notice.reserve, .voided].map (Notice.envelope id)) ∧
          (Placed id events → ¬ CalledOff id events →
            orderRow last.engine.store id = some Stage.shipped.ordinal ∧
            about id handed =
              [Notice.reserve, .capture, .ship, .confirmed, .completed ("TRK-" ++ id)].map
                (Notice.envelope id)) ∧
          (¬ Placed id events → orderRow last.engine.store id = none ∧ about id handed = []) := by
  obtain ⟨host, hsubscribe, hattended, hstore⟩ :=
    subscribe_newHost { options } dispatch application now
  have hopened : Tracked (fun _ => none) [] host := by
    refine ⟨hattended, fun _ => ?_, [], ?_, nofun, fun _ => rfl⟩
    · rw [hstore]
      rfl
    · rw [hstore]
      rfl
  obtain ⟨next, hdelivered, hnext⟩ := hopened.deliverAll hids
  choose final notices hcourses hfates using fun id => (requested id hrequests).course
  obtain ⟨rounds, handed, last, hrelay, hrounds, hempty, hends⟩ :=
    hnext.relay (by decide : 4 < Program.maxRounds) hcourses 0
  rw [Nat.zero_add] at hrelay
  have hrecorded : recordedReplay events host = .ok (.drained rounds, handed) last :=
    (EStateM.bind_of_ok hdelivered).trans hrelay
  refine ⟨host, hsubscribe, rounds, handed, last, ?_, hrecorded, hrounds, hempty, fun id => ?_⟩
  · rw [replay_eq]
    show EStateM.map Prod.fst _ host = _
    unfold EStateM.map
    rw [hrecorded]
  · obtain ⟨hrow, hhanded⟩ := hends id
    obtain ⟨hoff, hstands, hnone⟩ := hfates id
    rw [hrow, hhanded]
    refine ⟨fun h => ?_, fun hplaced h => ?_, fun h => ?_⟩
    · rw [(hoff h).1, (hoff h).2]
      exact ⟨rfl, rfl⟩
    · rw [(hstands hplaced h).1, (hstands hplaced h).2]
      exact ⟨rfl, rfl⟩
    · rw [(hnone h).1, (hnone h).2]
      exact ⟨rfl, rfl⟩

namespace Replaying

/-- The orders of the demonstration come in, and one is cancelled before the warehouse answers. -/
def events : List OrderEvent := Program.orders.map .placed ++ [.cancelled ⟨"o-2"⟩]

/-- The cancelled order is called off, and the others are shipped. -/
theorem orders_finish :
    (∀ event ∈ events, event.IsRequest) ∧ (∀ event ∈ events, isBlank event.orderId = false) ∧
      ∃ host rounds last, subscribe (newHost { options := {} } {} [Ledger.serviceName] 0) =
          .ok () host ∧
        Program.replay events host = .ok (.drained rounds) last ∧
        orderRow last.engine.store "o-1" = some Stage.shipped.ordinal ∧
        orderRow last.engine.store "o-2" = some Stage.cancelled.ordinal ∧
        orderRow last.engine.store "o-3" = some Stage.shipped.ordinal := by
  have hrequests : ∀ event ∈ events, event.IsRequest := by
    simp [events, Program.orders, OrderEvent.IsRequest]
  have hids : ∀ event ∈ events, isBlank event.orderId = false := by decide
  obtain ⟨host, hsubscribe, rounds, handed, last, hreplay, -, -, -, hends⟩ :=
    replay_finishes {} {} [Ledger.serviceName] 0 hrequests hids
  refine ⟨hrequests, hids, host, rounds, last, hsubscribe, hreplay, ?_, ?_, ?_⟩
  · exact ((hends "o-1").2.1 (by decide) (by decide)).1
  · exact ((hends "o-2").1 (by decide)).1
  · exact ((hends "o-3").2.1 (by decide) (by decide)).1

end Replaying

end Saga.Demo
