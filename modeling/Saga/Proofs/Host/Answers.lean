import Saga.Proofs.Host.Twins

/-!
# How the handlers of a message end

A live delivery gives every handler of the message one turn, and each turn has an ending: the answer
of the handler and the messages that it has posted (`Host.endings`). The report and the outbox are
read off these (`Host.report_endings`, `Host.outbox_turns`). Where some of the turns do not matter
to what a relation compares, the endings of the others are those of a delivery without them
(`Host.turns_thinned`).
-/

namespace Saga

variable {σ M : Type} [Message M]

/-- How a handler ended with a message. -/
structure Ending where
  handler : String
  answer : Except EngineError String
  /-- What the handler has added to the outbox. -/
  posted : List Envelope

namespace Ending

/-- What a report says of a handler that succeeded. -/
def handled? (e : Ending) : Option (String × String) :=
  match e.answer with
  | .ok summary => some (e.handler, summary)
  | .error _ => none

/-- What a report says of a handler that failed. -/
def failed? (e : Ending) : Option (String × EngineError) :=
  match e.answer with
  | .ok _ => none
  | .error cause => some (e.handler, cause)

/-- Every handler counts as one that succeeded or as one that failed. -/
lemma length_filterMap (endings : List Ending) :
    (endings.filterMap handled?).length + (endings.filterMap failed?).length = endings.length := by
  induction endings with
  | nil => rfl
  | cons e rest ih =>
    obtain ⟨handler, answer, posted⟩ := e
    cases answer with
    | ok summary =>
      simp only [List.filterMap_cons, handled?, failed?, List.length_cons]
      omega
    | error cause =>
      simp only [List.filterMap_cons, handled?, failed?, List.length_cons]
      omega

/-- Every handler is named once, as one that succeeded or as one that failed. -/
lemma names_perm (endings : List Ending) :
    ((endings.filterMap handled?).map Prod.fst ++ (endings.filterMap failed?).map Prod.fst).Perm
      (endings.map handler) := by
  induction endings with
  | nil => exact .nil
  | cons e rest ih =>
    obtain ⟨handler, answer, posted⟩ := e
    cases answer with
    | ok summary => exact ih.cons handler
    | error cause => exact List.perm_middle.trans (ih.cons handler)

/-- Those that succeeded are the ones that count as handled, and none of them as failed. -/
lemma filterMap_succeeded (endings : List Ending) :
    (endings.filter fun e => e.answer.isOk).filterMap handled? = endings.filterMap handled? ∧
      (endings.filter fun e => e.answer.isOk).filterMap failed? = [] := by
  induction endings with
  | nil => exact ⟨rfl, rfl⟩
  | cons e rest ih =>
    obtain ⟨handler, answer, posted⟩ := e
    obtain ⟨hhandled, hfailed⟩ := ih
    cases answer with
    | ok summary =>
      refine ⟨?_, hfailed⟩
      show (handler, summary) :: _ = (handler, summary) :: _
      rw [hhandled]
    | error cause => exact ⟨hhandled, hfailed⟩

/-- The messages with the name of the handler that has posted them. -/
def signed (e : Ending) : List (String × Envelope) :=
  e.posted.map fun message => (e.handler, message)

/-- Without the names of the handlers, signed messages are the messages that were posted. -/
lemma flatMap_signed_snd (endings : List Ending) :
    (endings.flatMap signed).map Prod.snd = endings.flatMap posted := by
  rw [List.map_flatMap]
  congr 1
  funext e
  simp [signed, Function.comp_def]

/-- What one handler has posted is what its endings have. -/
lemma filter_flatMap_signed (endings : List Ending) (name : String) :
    (endings.flatMap signed).filter (fun p => p.1 = name) =
      (endings.filter fun e => e.handler = name).flatMap signed := by
  induction endings with
  | nil => rfl
  | cons e rest ih =>
    have hone : e.signed.filter (fun p => p.1 = name) =
        if e.handler = name then e.signed else [] := by
      unfold signed
      rw [List.filter_map]
      split
      · next heq => simp [Function.comp_def, heq]
      · next hne => simp [Function.comp_def, hne]
    rw [List.flatMap_cons, List.filter_append, ih, hone, List.filter_cons]
    by_cases heq : e.handler = name <;> simp [heq]

/-- Answers add up to a report. -/
lemma foldl_answered (endings : List Ending) (report : Report) :
    endings.foldl (fun report e => report.answered e.handler e.answer) report =
      ⟨report.handled ++ endings.filterMap handled?,
        report.failed ++ endings.filterMap failed?⟩ := by
  induction endings generalizing report with
  | nil => simp
  | cons e rest ih =>
    obtain ⟨handler, answer, posted⟩ := e
    rw [List.foldl_cons, ih]
    cases answer <;> simp [Report.answered, List.filterMap_cons, handled?, failed?]

end Ending

namespace Host

variable {router : Router σ M} {m : M} {h : Host σ M}

/-- How a handler ends from the delivery from which it sets out. -/
def ending (router : Router σ M) (m : M) (t : Handler σ M × Delivery σ M) : Ending where
  handler := t.1.name
  answer := Run.result (runHandler router m t.1 t.2)
  posted := (Run.final (runHandler router m t.1 t.2)).store.outbox.drop t.2.store.outbox.length

/-- How the handlers of a message end in a live delivery, in the order of their turns. -/
def endings (h : Host σ M) (m : M) : List Ending := (h.turnsOf m).map (ending h.router m)

/-- The turns of handlers are theirs, in their order. -/
lemma turns_map_fst (router : Router σ M) (m : M) (handlers : List (Handler σ M))
    (progress : Report × Delivery σ M) :
    (turns router m handlers progress).map Prod.fst = handlers := by
  induction handlers generalizing progress with
  | nil => rfl
  | cons handler rest ih => rw [turns, List.map_cons, ih]

/-- Every handler of the message has one ending, in the order of the handlers. -/
lemma endings_map_handler (h : Host σ M) (m : M) :
    (h.endings m).map Ending.handler = (h.handlersOf (Message.type m)).map Handler.name := by
  rw [← turns_map_fst h.router m (h.handlersOf (Message.type m)) ({}, h.engine.delivery false),
    List.map_map, endings, List.map_map]
  rfl

/-- A delivery is one handler after the other; without handlers only the log is written. -/
lemma deliver_eq (h : Host σ M) (m : M) (cancelled : Bool) :
    let last := deliverAll h.router m (h.handlersOf (Message.type m)) (h.engine.delivery cancelled)
    ∃ log, h.deliver m cancelled =
      ((last.1, last.2.cancelled), { h with engine := { last.2.toEngine with log } }) := by
  unfold deliver
  cases h.handlersOf (Message.type m) <;> exact ⟨_, rfl⟩

/-- The report says how the handlers end in their turns. -/
lemma report_of_turns (h : Host σ M) (m : M) (cancelled : Bool) :
    let progress : Report × Delivery σ M := ({}, h.engine.delivery cancelled)
    let endings :=
      (turns h.router m (h.handlersOf (Message.type m)) progress).map (ending h.router m)
    (h.deliver m cancelled).1.1 =
      ⟨endings.filterMap Ending.handled?, endings.filterMap Ending.failed?⟩ := by
  intro progress endings
  obtain ⟨log, hdeliver⟩ := deliver_eq h m cancelled
  have hreport : (h.deliver m cancelled).1.1 =
      endings.foldl (fun report e => report.answered e.handler e.answer) {} := by
    rw [hdeliver, List.foldl_map]
    exact report_turns h.router m _ progress
  rw [hreport, Ending.foldl_answered]
  simp

/-- The report of a live delivery says how the handlers end. -/
lemma report_endings (h : Host σ M) (m : M) :
    (h.deliver m false).1.1 =
      ⟨(h.endings m).filterMap Ending.handled?, (h.endings m).filterMap Ending.failed?⟩ :=
  report_of_turns h m false

/-- The outbox is given what the handlers post, one after the other, if each of them takes nothing
out of it. -/
lemma outbox_turns {I : Delivery σ M → Prop} {handlers : List (Handler σ M)}
    (hfree : ∀ {s} session log, I s → I { s with session, log })
    (hhandler : ∀ handler ∈ handlers, ∀ s, s.session = {} → I s →
      I (Run.final (runHandler router m handler s)) ∧ ∃ messages,
        (Run.final (runHandler router m handler s)).store.outbox = s.store.outbox ++ messages)
    {progress : Report × Delivery σ M} (hs : I progress.2) :
    let last := handlers.foldl (deliverTo router m) progress
    I last.2 ∧ last.2.store.outbox = progress.2.store.outbox ++
      ((turns router m handlers progress).map (ending router m)).flatMap Ending.posted := by
  induction handlers generalizing progress with
  | nil => exact ⟨hs, (List.append_nil _).symm⟩
  | cons handler rest ih =>
    obtain ⟨hfirst, hrest⟩ := List.forall_mem_cons.1 hhandler
    obtain ⟨report, s⟩ := progress
    obtain ⟨log, hrun⟩ := deliverTo_run router m report s handler
    obtain ⟨hkept, messages, hmessages⟩ := hfirst { s with session := {} } rfl (hfree {} s.log hs)
    have hnext : I (deliverTo router m (report, s) handler).2 := by
      rw [hrun]
      exact hfree s.session log hkept
    obtain ⟨hlast, houtbox⟩ := ih hrest hnext
    refine ⟨hlast, ?_⟩
    have hposted : (ending router m (handler, { s with session := {} })).posted = messages := by
      simp only [ending, hmessages, List.drop_left]
    have hafter : (deliverTo router m (report, s) handler).2.store.outbox =
        s.store.outbox ++ messages := by
      rw [hrun]
      exact hmessages
    rw [List.foldl_cons, houtbox, hafter, turns, List.map_cons, List.flatMap_cons, hposted,
      List.append_assoc]

/-- What the handlers post while messages are delivered live one after the other, each at its
time. -/
def posted (h : Host σ M) : List (Timestamp × M) → List (String × Envelope)
  | [] => []
  | round :: rest =>
    ((h.step (.tick round.1)).endings round.2).flatMap Ending.signed ++
      posted ((h.step (.tick round.1)).deliver round.2 false).2 rest

section Thinning

variable {R : Delivery σ M → Delivery σ M → Prop} {p : Handler σ M × Delivery σ M → Bool}
  {handlers : List (Handler σ M)}

/-- Turns that leave a relation between deliveries as it is can be left out: the others end just as
in a delivery without them, if in related deliveries they end alike and leave related ones. -/
lemma turns_thinned (progress progress' : Report × Delivery σ M)
    (hfree : ∀ {s s'} session session' log log', R s s' →
      R { s with session, log } { s' with session := session', log := log' })
    (hkept : ∀ handler ∈ handlers, ∀ s s', s.session = {} → s'.session = {} → R s s' →
      p (handler, s) = true → ending router m (handler, s) = ending router m (handler, s') ∧
        R (Run.final (runHandler router m handler s)) (Run.final (runHandler router m handler s')))
    (hleft : ∀ handler ∈ handlers, ∀ s s', s.session = {} → s'.session = {} → R s s' →
      p (handler, s) = false → R (Run.final (runHandler router m handler s)) s')
    (hrelated : R progress.2 progress'.2) :
    let kept := (turns router m handlers progress).filter p
    kept.map (ending router m) =
        (turns router m (kept.map Prod.fst) progress').map (ending router m) ∧
      R (handlers.foldl (deliverTo router m) progress).2
        ((kept.map Prod.fst).foldl (deliverTo router m) progress').2 := by
  induction handlers generalizing progress progress' with
  | nil => exact ⟨rfl, hrelated⟩
  | cons handler rest ih =>
    obtain ⟨hkept₁, hkept⟩ := List.forall_mem_cons.1 hkept
    obtain ⟨hleft₁, hleft⟩ := List.forall_mem_cons.1 hleft
    obtain ⟨report, s⟩ := progress
    obtain ⟨report', s'⟩ := progress'
    obtain ⟨log, hrun⟩ := deliverTo_run router m report s handler
    obtain ⟨log', hrun'⟩ := deliverTo_run router m report' s' handler
    have hfresh : R { s with session := {} } { s' with session := {} } :=
      hfree {} {} s.log s'.log hrelated
    simp only [turns, List.foldl_cons]
    cases hp : p (handler, { s with session := {} }) with
    | true =>
      obtain ⟨hending, hnext⟩ := hkept₁ _ _ rfl rfl hfresh hp
      have hafter : R (deliverTo router m (report, s) handler).2
          (deliverTo router m (report', s') handler).2 := by
        rw [hrun, hrun']
        exact hfree s.session s'.session log log' hnext
      obtain ⟨hendings, hlast⟩ := ih _ _ hkept hleft hafter
      rw [List.filter_cons_of_pos hp]
      simp only [List.map_cons, turns, List.foldl_cons]
      exact ⟨by rw [hending, hendings], hlast⟩
    | false =>
      have hnext := hleft₁ _ _ rfl rfl hfresh hp
      have hafter : R (deliverTo router m (report, s) handler).2 s' := by
        rw [hrun]
        exact (hfree s.session s'.session log s'.log hnext :)
      rw [List.filter_cons_of_neg (by simp [hp])]
      exact ih _ _ hkept hleft hafter

end Thinning

end Host

end Saga
