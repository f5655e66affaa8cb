import Saga.Proofs.Demo.Finishing

/-!
# The relay comes to an end

Whatever rows a store has and whatever waits in its outbox, each message stands for few rounds
(`Envelope.rounds`): the warehouse and the payment provider answer a command with an event, and what
an event has sent about its order, if anything, stands for fewer rounds than the command did
(`rounds_of_hear`). So the most that any message in the outbox stands for goes down in every round
(`Waits.round`), however many messages there are, and the relay finds the outbox empty before it
gives up (`relay_drains`).
-/

namespace Saga

open Demo in
/-- The number of rounds that a message stands for: the one in which it is handed out, and those of
what may come of it. -/
def Envelope.rounds (e : Envelope) : Nat :=
  match e.kind with
  | .notification => 1
  | .command =>
    if e.messageType = Payload.typeName ReserveStock then 4
    else if e.messageType = Payload.typeName CapturePayment then 3
    else if e.messageType = Payload.typeName ShipOrder then 2
    else 1

namespace Demo

/-- The number of rounds that a notice about an order stands for. -/
def Notice.rounds : Notice → Nat
  | reserve => 4
  | capture => 3
  | ship => 2
  | _ => 1

/-- The number of rounds that the notices which an event may give rise to stand for. -/
def OrderEvent.rounds : OrderEvent → Nat
  | placed _ => 4
  | stockReserved _ => 3
  | paymentCaptured _ => 2
  | shipped _ => 1
  | cancelled _ => 1

/-- Whether the payload of an envelope can be read, if it is of a command that is answered. -/
structure Readable (e : Envelope) : Prop where
  reserve : e.kind = .command → e.messageType = Payload.typeName ReserveStock →
    ∃ command, e.decode ReserveStock = .ok command
  capture : e.kind = .command → e.messageType = Payload.typeName CapturePayment →
    ∃ command, e.decode CapturePayment = .ok command
  ship : e.kind = .command → e.messageType = Payload.typeName ShipOrder →
    ∃ command, e.decode ShipOrder = .ok command

variable {e : Envelope} {event : OrderEvent} {h : OrderHost} {n : Nat}

/-- A readable message is answered, with an event or with none. -/
lemma Readable.answer (he : Readable e) : ∃ event?, answer e = .ok event? := by
  unfold Demo.answer
  cases hkind : e.kind with
  | notification => exact ⟨none, rfl⟩
  | command =>
    dsimp only
    split
    · next hreserve =>
      obtain ⟨command, hdecode⟩ := he.reserve hkind hreserve
      rw [hdecode]
      exact ⟨_, rfl⟩
    split
    · next hcapture =>
      obtain ⟨command, hdecode⟩ := he.capture hkind hcapture
      rw [hdecode]
      exact ⟨_, rfl⟩
    split
    · next hship =>
      obtain ⟨command, hdecode⟩ := he.ship hkind hship
      rw [hdecode]
      exact ⟨_, rfl⟩
    · exact ⟨none, rfl⟩

/-- What is sent about an order can be read. -/
lemma readable_envelope (orderId : String) (notice : Notice) :
    Readable (notice.envelope orderId) := by
  constructor
  all_goals
    intro hkind _
    cases notice with
    | confirmed | completed tracking | voided => cases hkind
    | _ => exact ⟨_, rfl⟩

/-- The envelope of a notice stands for as many rounds as the notice. -/
lemma rounds_envelope (orderId : String) (notice : Notice) :
    (notice.envelope orderId).rounds = notice.rounds := by
  cases notice <;> rfl

/-- Every message stands for a round at least, the one in which it is handed out. -/
lemma rounds_pos (e : Envelope) : 0 < e.rounds := by
  unfold Envelope.rounds
  split
  · exact Nat.one_pos
  · split_ifs <;> decide

/-- No message stands for more than four rounds. -/
lemma rounds_le (e : Envelope) : e.rounds ≤ 4 := by
  unfold Envelope.rounds
  split
  · decide
  · split_ifs <;> decide

/-- An answered command stands for one round more than what its answer may give rise to. -/
lemma rounds_of_answer (h : answer e = .ok (some event)) : e.rounds = event.rounds + 1 := by
  obtain ⟨hkind, hanswer⟩ := answer_cases h
  unfold Envelope.rounds
  rw [hkind]
  rcases hanswer with ⟨htype, id, rfl⟩ | ⟨htype, id, rfl⟩ | ⟨htype, id, tracking, rfl⟩
  all_goals rw [htype]; rfl

/-- What a stage sends on an event stands for no more rounds than the event. -/
lemma rounds_of_advance {stage : Option Stage} {next : Stage} {notices : List Notice}
    (h : advance stage event = some (next, notices)) :
    ∀ notice ∈ notices, notice.rounds ≤ event.rounds := by
  rcases stage with _ | stage
  · cases event <;> cases h
    simp [Notice.rounds, OrderEvent.rounds]
  · cases stage <;> cases event <;> cases h <;> simp [Notice.rounds, OrderEvent.rounds]

/-- Whatever row an order has, if any, what an event has sent about it stands for few rounds. -/
lemma rounds_of_hear (row : Option Int32) (event : OrderEvent) :
    ∀ notice ∈ (hear row event).2, notice.rounds ≤ event.rounds := by
  unfold hear
  cases hrow : advanceRow row event with
  | none => nofun
  | some step =>
    obtain ⟨next, notices⟩ := step
    cases row with
    | none => exact rounds_of_advance hrow
    | some ordinal =>
      obtain ⟨stage, -, hstage⟩ := Option.bind_eq_some_iff.1 hrow
      exact rounds_of_advance hstage

/-! ## Rounds -/

/-- Whether a host is attended and the messages in its outbox can be read and stand for at most `n`
rounds. -/
structure Waits (n : Nat) (h : OrderHost) : Prop where
  attended : Attended h
  readable : ∀ e ∈ h.engine.store.outbox, Readable e
  rounds : ∀ e ∈ h.engine.store.outbox, e.rounds ≤ n

namespace Waits

/-- More messages that can be read and stand for few rounds leave an outbox that is drained in that
many. -/
lemma of_append {h' : OrderHost} {more : List Envelope} (hh : Waits n h)
    (hattended : Attended h')
    (houtbox : h'.engine.store.outbox = h.engine.store.outbox ++ more)
    (hmore : ∀ e ∈ more, Readable e ∧ e.rounds ≤ n) : Waits n h' := by
  refine ⟨hattended, fun e he => ?_, fun e he => ?_⟩
  · rw [houtbox] at he
    exact (List.mem_append.1 he).elim (hh.readable e) fun hnew => (hmore e hnew).1
  · rw [houtbox] at he
    exact (List.mem_append.1 he).elim (hh.rounds e) fun hnew => (hmore e hnew).2

/-- An event adds what it may give rise to, if it reaches its order, and else nothing. -/
lemma deliver (hh : Waits n h) (hn : event.rounds ≤ n) :
    Waits n (h.deliver event false).2 := by
  obtain ⟨report, h', hdeliver, hattended, heffect⟩ := deliver_heard hh.attended event false
  cases hdeliver
  unfold Effect at heffect
  split at heffect
  · refine hh.of_append hattended heffect.outbox fun e he => ?_
    obtain ⟨notice, hnotice, rfl⟩ := List.mem_map.1 he
    refine ⟨readable_envelope event.orderId notice, ?_⟩
    rw [rounds_envelope]
    exact (rounds_of_hear _ event notice hnotice).trans hn
  · exact hh.of_append hattended (heffect.outbox.trans (List.append_nil _).symm) nofun

/-- Answering a message adds what stands for fewer rounds than the message, if anything. -/
lemma respond (hh : Waits n h) (he : Readable e) (hn : e.rounds ≤ n + 1) :
    ∃ answered h', Demo.respond e false h = .ok answered h' ∧ Waits n h' := by
  obtain ⟨event?, hanswer⟩ := he.answer
  have happly := respond_apply e false h
  rw [hanswer] at happly
  cases event? with
  | none =>
    obtain ⟨log, hrun⟩ := happly
    exact ⟨false, _, hrun, ⟨⟨hh.attended.handlers, hh.attended.trusted⟩, hh.readable, hh.rounds⟩⟩
  | some event =>
    rw [rounds_of_answer hanswer] at hn
    exact ⟨true, _, happly, hh.deliver (Nat.le_of_succ_le_succ hn)⟩

/-- A round takes one from the rounds that the messages in the outbox stand for. -/
lemma round (hh : Waits (n + 1) h) :
    ∃ h', h.engine.store.outbox.forM (fun e => discard (Demo.respond e false)) h.drain.2 =
      .ok () h' ∧ Waits n h' := by
  have hdrained : Waits n h.drain.2 :=
    ⟨⟨hh.attended.handlers, hh.attended.trusted⟩, nofun, nofun⟩
  exact forM_discard_of_forall (fun e he _ hwaits =>
    hwaits.respond (hh.readable e he) (hh.rounds e he)) hdrained

/-- With no round to wait for there is no message. -/
lemma outbox_eq_nil (hh : Waits 0 h) : h.engine.store.outbox = [] := by
  refine List.eq_nil_iff_forall_not_mem.2 fun e he => ?_
  exact absurd (hh.rounds e he) (Nat.not_le.2 (rounds_pos e))

/-- A relay of more rounds than the messages in the outbox stand for ends with nothing left. -/
lemma relay {rounds : Nat} (hlt : n < rounds) (hh : Waits n h) (before : Nat) :
    ∃ k handed h', recordedRelay false before rounds h = .ok (.drained (before + k), handed) h' ∧
      k ≤ n ∧ h'.engine.store.outbox = [] := by
  induction rounds generalizing n h before with
  | zero => exact absurd hlt n.not_lt_zero
  | succ rounds ih =>
    by_cases hempty : h.engine.store.outbox = []
    · exact ⟨0, [], h.drain.2, recordedRelay_of_empty hempty before rounds, n.zero_le, rfl⟩
    · cases n with
      | zero => exact absurd hh.outbox_eq_nil hempty
      | succ n =>
        obtain ⟨next, hround, hnext⟩ := hh.round
        obtain ⟨k, handed, h', hrun, hk, hlast⟩ :=
          ih (Nat.lt_of_succ_lt_succ hlt) hnext (before + 1)
        refine ⟨k + 1, h.engine.store.outbox ++ handed, h', ?_, Nat.succ_le_succ hk, hlast⟩
        rw [recordedRelay_of_round hempty hround hrun, Nat.add_right_comm]
        rfl

/-- Events that are delivered one after the other have sent what stands for four rounds at most. -/
lemma deliverAll (hh : Waits 4 h) (events : List OrderEvent) :
    ∃ h', events.forM (fun event => discard (Demo.deliver event false)) h = .ok () h' ∧
      Waits 4 h' := by
  refine forM_discard_of_forall (fun event _ next hnext => ?_) hh
  have hn : event.rounds ≤ 4 := by cases event <;> simp [OrderEvent.rounds]
  exact ⟨_, _, rfl, hnext.deliver hn⟩

end Waits

/-- The relay drains any outbox. Let both workflows subscribe to a host with any rows, whatever the
ordinals in them, and any messages in its outbox, whose payload can be read at least where it is
answered. Then after at most four rounds with messages the relay finds nothing more to answer, if it
may look once more. Nor does it give up in a replay, whatever events are delivered before. -/
theorem relay_drains (store : Store) (options : DispatchOptions) (application : List String)
    (now : Timestamp) (hreadable : ∀ e ∈ store.outbox, Readable e) :
    ∃ host, subscribe (newHost store options application now) = .ok () host ∧
      host.engine.store = store ∧
      (∀ bound, 4 < bound → ∃ rounds last, relay false 0 bound host = .ok (.drained rounds) last ∧
        rounds ≤ 4 ∧ last.engine.store.outbox = []) ∧
      ∀ events, ∃ rounds last, Program.replay events host = .ok (.drained rounds) last ∧
        rounds ≤ 4 ∧ last.engine.store.outbox = [] := by
  obtain ⟨host, hsubscribe, hattended, hstore⟩ := subscribe_newHost store options application now
  have hopened : Waits 4 host := ⟨hattended, hstore ▸ hreadable, fun e _ => rounds_le e⟩
  refine ⟨host, hsubscribe, hstore, fun bound hbound => ?_, fun events => ?_⟩
  · obtain ⟨rounds, handed, last, hrelay, hle, hempty⟩ := hopened.relay hbound 0
    rw [Nat.zero_add] at hrelay
    exact ⟨rounds, last, relay_of_recorded hrelay, hle, hempty⟩
  · obtain ⟨next, hdelivered, hnext⟩ := hopened.deliverAll events
    obtain ⟨rounds, handed, last, hrelay, hle, hempty⟩ :=
      hnext.relay (by decide : 4 < Program.maxRounds) 0
    rw [Nat.zero_add] at hrelay
    refine ⟨rounds, last, ?_, hle, hempty⟩
    exact (EStateM.bind_of_ok hdelivered).trans (relay_of_recorded hrelay)

namespace Draining

/-- An order that waits for its goods, one in a state that no workflow knows, and one of which
nothing is known. All have been asked for, one of them for its payment too. -/
def store : Store where
  table := .ofList [
    ⟨⟨⟨"o-1", "fulfilment"⟩, Stage.placed.ordinal, 7⟩, 0, 0⟩,
    ⟨⟨⟨"o-2", "fulfilment"⟩, 99, 3⟩, 0, 0⟩]
  outbox := [
    Notice.reserve.envelope "o-1", Notice.reserve.envelope "o-2", Notice.reserve.envelope "o-3",
    Notice.capture.envelope "o-1", Notice.ship.envelope "", Notice.release.envelope "o-2",
    ⟨.notification, Payload.typeName ShipOrder, .null⟩, ⟨.command, "audit", .null⟩]

/-- All of this is answered in a few rounds. -/
theorem leftovers_drain :
    (∀ e ∈ store.outbox, Readable e) ∧
      ∃ host rounds last, subscribe (newHost store {} [] 0) = .ok () host ∧
        host.engine.store = store ∧
        relay false 0 Program.maxRounds host = .ok (.drained rounds) last ∧ rounds ≤ 4 ∧
          last.engine.store.outbox = [] := by
  have hnotified : Readable ⟨.notification, Payload.typeName ShipOrder, .null⟩ :=
    ⟨nofun, nofun, nofun⟩
  have hunanswered : Readable ⟨.command, "audit", .null⟩ := by
    constructor
    all_goals
      intro _ htype
      exact absurd htype (by decide)
  have hreadable : ∀ e ∈ store.outbox, Readable e := by
    simp only [store, List.forall_mem_cons]
    exact ⟨readable_envelope .., readable_envelope .., readable_envelope .., readable_envelope ..,
      readable_envelope .., readable_envelope .., hnotified, hunanswered, nofun⟩
  obtain ⟨host, hsubscribe, hstore, hrelay, -⟩ := relay_drains store {} [] 0 hreadable
  obtain ⟨rounds, last, hrun, hrounds, hempty⟩ := hrelay Program.maxRounds (by decide)
  exact ⟨hreadable, host, rounds, last, hsubscribe, hstore, hrun, hrounds, hempty⟩

end Draining

end Demo

end Saga
