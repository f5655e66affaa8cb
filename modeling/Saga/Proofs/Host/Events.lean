import Saga.Host
import Saga.Proofs.Dispatch.Stages
import Saga.Proofs.Interleaving.Pool

/-!
# What can happen to a host

Definitions subscribe to message types, messages are delivered, the clock goes on and the outbox is
handed out (`Host.Event`). Deliveries may overlap: then the handlers of several messages take turns,
as tasks of one pool on the engine of the host (`Host.overlap`). A subscription is refused and
changes nothing, or it adds one handler and one blueprint (`Host.subscribe_cases`); a delivery does
what its handlers do, each in a session of its own (`Host.deliver_keeps`).
-/

namespace Saga

/-- The report of a delivery with the answer of one more handler. -/
def Report.answered (report : Report) (name : String) : Except EngineError String → Report
  | .ok summary => { report with handled := report.handled ++ [(name, summary)] }
  | .error e => { report with failed := report.failed ++ [(name, e)] }

namespace Host

variable {σ M : Type}

/-- Whether a definition handles messages of some type. -/
def Subscribed (h : Host σ M) (d : Definition σ M) : Prop :=
  ∃ trigger, .workflow d ∈ h.handlersOf trigger

/-- What can happen while deliveries overlap. -/
inductive Move (M : Type) where
  /-- One of the handlers of a message begins to work on it. -/
  | handle (message : M) (handler : Nat) (cancelled : Bool)
  | turn (task : Nat)
  | cancel (task : Nat)
  | tick (now : Timestamp)
  | drain

/-- What can happen to a host whose handlers all come by subscriptions. -/
inductive Event (σ M : Type) where
  | subscribe (definition : Definition σ M) (trigger : MessageType)
  | deliver (message : M) (cancelled : Bool)
  | overlap (moves : List (Move M))
  | tick (now : Timestamp)
  | drain

/-- A handler joins the others of its message type, as the last one. -/
lemma handlersOf_addHandler (h : Host σ M) (trigger other : MessageType) (handler : Handler σ M) :
    (addHandler trigger handler h).handlersOf other =
      if trigger = other then h.handlersOf other ++ [handler] else h.handlersOf other := by
  unfold addHandler handlersOf
  rw [Keyed.get?_insert]
  split
  · next heq =>
    subst heq
    rfl
  · rfl

/-- What a subscription that is accepted makes of a host: the name was free or the definition's own,
the definition has a blueprint, and there is one handler more. -/
structure Accepted (d : Definition σ M) (trigger : MessageType) (h h' : Host σ M) : Prop where
  free : h.nameTaken d.id = false
  engine : ∃ b registry log, Registry.Origin d trigger h.engine.registry b registry ∧
    h'.engine = { h.engine with registry, log }
  router : h'.router = h.router
  owners : h'.owners = h.owners.insert d.id.name d.id
  handlers : ∀ other, h'.handlersOf other =
    if trigger = other then h.handlersOf other ++ [.workflow d] else h.handlersOf other

/-- A subscription is refused and changes nothing, or it is accepted. -/
lemma subscribe_cases (h : Host σ M) (d : Definition σ M) (trigger : MessageType) :
    (∃ e, subscribe d trigger h = .error e h) ∨
      ∃ h', subscribe d trigger h = .ok () h' ∧ Accepted d trigger h h' := by
  have hget : ∀ f : Host σ M → EStateM EngineError (Host σ M) Unit, (get >>= f) h = f h h :=
    fun _ => rfl
  unfold subscribe
  rw [hget]
  cases hfree : h.nameTaken d.id with
  | true => exact .inl ⟨.build (.duplicateDefinitionName d.id.name), rfl⟩
  | false =>
    rcases Registry.blueprint_cases d trigger { h.engine with } with
      ⟨e, hfetch⟩ | ⟨b, registry, log, hfetch, horigin⟩
    · have hrefused : onEngine (Registry.blueprint d trigger) h = .error e h := by
        simp only [onEngine, hfetch]
      refine .inl ⟨e, ?_⟩
      simp only [Bool.false_eq_true, if_false, bind, EStateM.bind, hrefused]
    · have hfetched : onEngine (Registry.blueprint d trigger) h =
          .ok b { h with engine := { h.engine with registry, log } } := by
        simp only [onEngine, hfetch]
      simp only [Bool.false_eq_true, if_false, bind, EStateM.bind, hfetched]
      refine .inr ⟨_, rfl, hfree, ⟨b, registry, _, horigin, rfl⟩, rfl, rfl, ?_⟩
      intro other
      exact handlersOf_addHandler _ trigger other (.workflow d)

variable [Message M]

/-- The work of one of the handlers of a message, for a pool. -/
def job? (h : Host σ M) (m : M) (handler : Nat) (cancelled : Bool) : Option (Job σ M) :=
  match (h.handlersOf (Message.type m))[handler]? with
  | some (.workflow d) => some {
      definition := d
      options := h.router.options
      message := m
      services := .ofSession h.router.application
      own := (Services.complete_ofSession h.router.application).ofSession
      depth := Router.depth
      cancelled }
  | _ => none

/-- What a move is for the pool of the handlers that are at work. -/
def event? (h : Host σ M) : Move M → Option (Pool.Event σ M)
  | .handle m handler cancelled => (h.job? m handler cancelled).map .start
  | .turn task => some (.turn task)
  | .cancel task => some (.cancel task)
  | .tick now => some (.tick now)
  | .drain => some .drain

/-- Lets deliveries overlap, as far as some moves take them. -/
def overlap (h : Host σ M) (moves : List (Move M)) : Pool σ M :=
  Pool.run { engine := h.engine, router := h.router } (moves.filterMap h.event?)

/-- What an event makes of a host. Handlers that are at work when an overlap ends are given up. -/
def step (h : Host σ M) : Event σ M → Host σ M
  | .subscribe d trigger => Run.final (subscribe d trigger h)
  | .deliver m cancelled => (h.deliver m cancelled).2
  | .overlap moves => { h with engine := (h.overlap moves).engine }
  | .tick now => { h with engine := { h.engine with now } }
  | .drain => h.drain.2

/-- What a list of events makes of a host. -/
def run (h : Host σ M) (events : List (Event σ M)) : Host σ M := events.foldl step h

omit [Message M] in
/-- Whether a definition asks to subscribe. -/
def Applicant (events : List (Event σ M)) (d : Definition σ M) : Prop :=
  ∃ trigger, .subscribe d trigger ∈ events

/-- A handler that is put to work is one that subscribed to the type of its message. -/
lemma subscribed_of_event {h : Host σ M} {moves : List (Move M)} {job : Job σ M}
    (hmem : .start job ∈ moves.filterMap h.event?) : h.Subscribed job.definition := by
  obtain ⟨move, -, hevent⟩ := List.mem_filterMap.1 hmem
  cases move with
  | handle m handler cancelled =>
    obtain ⟨job', hjob, heq⟩ := Option.map_eq_some_iff.1 hevent
    cases heq
    unfold job? at hjob
    split at hjob
    · next d hget =>
      cases hjob
      exact ⟨Message.type m, List.mem_of_getElem? hget⟩
    · cases hjob
  | _ => cases hevent

/-- What every event keeps is kept by every run. -/
lemma run_keeps {I : Host σ M → Prop} {h : Host σ M} {events : List (Event σ M)}
    (hstep : ∀ h, ∀ event ∈ events, I h → I (h.step event)) (hh : I h) : I (h.run events) := by
  unfold run
  induction events generalizing h with
  | nil => exact hh
  | cons event rest ih =>
    apply ih
    · intro h' other hmem
      exact hstep h' other (List.mem_cons_of_mem event hmem)
    · exact hstep h event List.mem_cons_self hh

section Deliver

/-- What a handler answers goes into the report, and what it leaves is what the next one begins
with. -/
lemma deliverTo_run (router : Router σ M) (m : M) (report : Report) (s : Delivery σ M)
    (handler : Handler σ M) :
    let run := runHandler router m handler { s with session := {} }
    ∃ log, deliverTo router m (report, s) handler =
      (report.answered handler.name (Run.result run),
        { Run.final run with session := s.session, log }) := by
  simp only [deliverTo, Delivery.inFreshSession]
  cases hrun : runHandler router m handler { s with session := {} } <;> exact ⟨_, rfl⟩

/-- A handler of a workflow runs one dispatch. -/
lemma handle_run (router : Router σ M) (m : M) (d : Definition σ M) (s : Delivery σ M) :
    Run.result (runHandler router m (.workflow d) s) =
        (Run.result (d.dispatch router.options router.scope m s)).map Outcome.summary ∧
      Run.final (runHandler router m (.workflow d) s) =
        Run.final (d.dispatch router.options router.scope m s) := by
  have hrun : runHandler router m (.workflow d) s = _ := Definition.handle_apply s
  rw [hrun]
  cases d.dispatch router.options router.scope m s <;> exact ⟨rfl, rfl⟩

variable {h : Host σ M} {m : M} {I : Engine σ M → Prop} {fails : EngineError → Prop}

/-- One handler after another keeps what each of them keeps in a fresh session. -/
lemma deliverAll_keeps {router : Router σ M} {handlers : List (Handler σ M)}
    (hlog : ∀ (engine : Engine σ M) log, I engine → I { engine with log })
    (hhandler : ∀ handler ∈ handlers, ∀ d : Delivery σ M, d.session = {} → I d.toEngine →
      I (Run.final (runHandler router m handler d)).toEngine ∧
        ∀ e, Run.result (runHandler router m handler d) = .error e → fails e)
    {d : Delivery σ M} (hd : I d.toEngine) :
    I (deliverAll router m handlers d).2.toEngine ∧
      ∀ failure ∈ (deliverAll router m handlers d).1.failed, fails failure.2 := by
  have hstep : ∀ handler ∈ handlers, ∀ progress : Report × Delivery σ M,
      (I progress.2.toEngine ∧ ∀ failure ∈ progress.1.failed, fails failure.2) →
        I (deliverTo router m progress handler).2.toEngine ∧
          ∀ failure ∈ (deliverTo router m progress handler).1.failed, fails failure.2 := by
    rintro handler hmem ⟨report, d⟩ ⟨hd, hreport⟩
    obtain ⟨hkept, hfails⟩ := hhandler handler hmem { d with session := {} } rfl hd
    obtain ⟨log, hrun⟩ := deliverTo_run router m report d handler
    rw [hrun]
    refine ⟨hlog _ _ hkept, fun failure hfailure => ?_⟩
    cases hresult : Run.result (runHandler router m handler { d with session := {} }) with
    | ok summary =>
      rw [hresult] at hfailure
      exact hreport failure hfailure
    | error e =>
      rw [hresult] at hfailure
      rcases List.mem_append.1 hfailure with hold | hnew
      · exact hreport failure hold
      · cases List.mem_singleton.1 hnew
        exact hfails e hresult
  unfold deliverAll
  apply List.foldlRecOn handlers (deliverTo router m)
    (motive := fun progress =>
      I progress.2.toEngine ∧ ∀ failure ∈ progress.1.failed, fails failure.2)
  · exact ⟨hd, nofun⟩
  · intro progress hprogress handler hmem
    exact hstep handler hmem progress hprogress

variable (fails) in
/-- A delivery keeps what each handler keeps in a fresh session, and reports no failures but those
of handlers. -/
lemma deliver_keeps (hlog : ∀ (engine : Engine σ M) log, I engine → I { engine with log })
    (hhandler : ∀ handler ∈ h.handlersOf (Message.type m), ∀ d : Delivery σ M, d.session = {} →
      I d.toEngine → I (Run.final (runHandler h.router m handler d)).toEngine ∧
        ∀ e, Run.result (runHandler h.router m handler d) = .error e → fails e)
    (hh : I h.engine) (cancelled : Bool) :
    I (h.deliver m cancelled).2.engine ∧
      ∀ failure ∈ (h.deliver m cancelled).1.1.failed, fails failure.2 := by
  unfold deliver
  cases hhandlers : h.handlersOf (Message.type m) with
  | nil => exact ⟨hlog _ _ hh, nofun⟩
  | cons first rest =>
    rw [hhandlers] at hhandler
    exact deliverAll_keeps hlog hhandler hh

end Deliver

end Host

end Saga
