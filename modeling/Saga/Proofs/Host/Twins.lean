import Mathlib.Data.List.Forall2
import Saga.Proofs.Dispatch.Alike
import Saga.Proofs.Host.Events

/-!
# Hosts that treat ignored messages differently

Two hosts that differ at most in whether an ignored message has the row written back are twins
(`Host.Twin`). What they are delivered live takes the same course in both, handler by handler, and
leaves them twins (`Host.Twin.deliver`); so nobody can tell from outside which is which
(`Host.persistUnchanged_unobservable`).
-/

namespace Saga

variable {σ M : Type} [Message M]

namespace Host

variable {router router' : Router σ M} {m : M}

/-- The deliveries from which the handlers of a message set out, one after the other. -/
def turns (router : Router σ M) (m : M) :
    List (Handler σ M) → Report × Delivery σ M → List (Handler σ M × Delivery σ M)
  | [], _ => []
  | handler :: rest, progress =>
    (handler, { progress.2 with session := {} }) ::
      turns router m rest (deliverTo router m progress handler)

/-- Whether turns of two hosts are of one definition and take the same course. -/
def SameTurn (router router' : Router σ M) (m : M) (t t' : Handler σ M × Delivery σ M) : Prop :=
  ∃ d, t.1 = .workflow d ∧ t'.1 = .workflow d ∧
    d.SameCourse router.options router'.options router.scope router'.scope m t.2 t'.2

/-- The report says what the handlers answer in their turns. -/
lemma report_turns (router : Router σ M) (m : M) (handlers : List (Handler σ M))
    (progress : Report × Delivery σ M) :
    (handlers.foldl (deliverTo router m) progress).1 =
      (turns router m handlers progress).foldl
        (fun report t => report.answered t.1.name (Run.result (runHandler router m t.1 t.2)))
        progress.1 := by
  induction handlers generalizing progress with
  | nil => rfl
  | cons handler rest ih =>
    obtain ⟨report, s⟩ := progress
    obtain ⟨log, hrun⟩ := deliverTo_run router m report s handler
    rw [List.foldl_cons, ih, turns, List.foldl_cons, hrun]

/-- Whether a live delivery keeps blueprints that only send, whatever its session. -/
def Ready (s : Delivery σ M) : Prop := Definition.Ready { s with session := {} }

/-- Whether a handler is that of a definition whose actions only send. -/
def Sends (handler : Handler σ M) : Prop :=
  ∃ d, handler = .workflow d ∧ d.RulesOnly Request.OnlySends

/-- A handler whose actions only send leaves a delivery ready. -/
lemma deliverTo_ready (router : Router σ M) (m : M) (report : Report) {s : Delivery σ M}
    (hs : Ready s) {handler : Handler σ M} (hsends : Sends handler) :
    Ready (deliverTo router m (report, s) handler).2 := by
  obtain ⟨d, rfl, hd⟩ := hsends
  obtain ⟨log, hrun⟩ := deliverTo_run router m report s (.workflow d)
  have hservices := router.services_complete
  obtain ⟨hlive, hregistry⟩ := Definition.dispatch_stays hservices hd hs router.options m
  rw [hrun, (handle_run router m d _).2]
  exact ⟨rfl, hlive, hregistry⟩

section Twins

variable (hrouter : router'.application = router.application)

include hrouter

/-- A handler takes the same course in both hosts, and leaves their engines alike. -/
lemma deliverTo_alike {s s' : Delivery σ M} (hs : Ready s) (hs' : Ready s')
    (halike : s.toEngine.Alike s'.toEngine) (report : Report) {handler : Handler σ M}
    (hsends : Sends handler) :
    let next := deliverTo router m (report, s) handler
    let next' := deliverTo router' m (report, s') handler
    SameTurn router router' m (handler, { s with session := {} })
        (handler, { s' with session := {} }) ∧
      next.1 = next'.1 ∧ next.2.toEngine.Alike next'.2.toEngine := by
  obtain ⟨d, rfl, hd⟩ := hsends
  obtain ⟨log, hrun⟩ := deliverTo_run router m report s (.workflow d)
  obtain ⟨log', hrun'⟩ := deliverTo_run router' m report s' (.workflow d)
  have hservices := router.services_complete
  have hscope : router'.scope.services = router.scope.services := by
    show Services.ofSession router'.application = Services.ofSession router.application
    rw [hrouter]
  obtain ⟨hcourse, hend⟩ := Definition.dispatch_alike hservices hscope hd hs hs' halike
    router.options router'.options m
  have hsummary : ∀ result : Except EngineError (Outcome d.states),
      result.map Outcome.summary = (result.map Outcome.unflagged).map Outcome.summary := by
    intro result
    cases result with
    | error e => rfl
    | ok outcome => exact congrArg Except.ok outcome.summary_unflagged.symm
  obtain ⟨hresult, hfinal⟩ := handle_run router m d { s with session := {} }
  obtain ⟨hresult', hfinal'⟩ := handle_run router' m d { s' with session := {} }
  simp only [hrun, hrun', hresult, hresult', hfinal, hfinal']
  refine ⟨⟨d, rfl, rfl, hcourse⟩, ?_, ?_⟩
  · rw [hsummary, hcourse.result, ← hsummary]
  · exact ⟨hend.states, hend.outbox, hend.options, hend.registry, hend.app⟩

/-- Handlers take the same courses one after the other. -/
lemma deliverAll_alike {handlers : List (Handler σ M)}
    (hsends : ∀ handler ∈ handlers, Sends handler)
    (report : Report) {s s' : Delivery σ M} (hs : Ready s) (hs' : Ready s')
    (halike : s.toEngine.Alike s'.toEngine) :
    let last := handlers.foldl (deliverTo router m) (report, s)
    let last' := handlers.foldl (deliverTo router' m) (report, s')
    List.Forall₂ (SameTurn router router' m) (turns router m handlers (report, s))
        (turns router' m handlers (report, s')) ∧
      last.1 = last'.1 ∧ last.2.toEngine.Alike last'.2.toEngine ∧ Ready last.2 ∧ Ready last'.2 := by
  induction handlers generalizing report s s' with
  | nil => exact ⟨.nil, rfl, halike, hs, hs'⟩
  | cons handler rest ih =>
    obtain ⟨hhandler, hrest⟩ := List.forall_mem_cons.1 hsends
    obtain ⟨hturn, hreport, hnext⟩ := deliverTo_alike hrouter hs hs' halike report hhandler
    have hready := deliverTo_ready router m report hs hhandler
    have hready' := deliverTo_ready router' m report hs' hhandler
    simp only [List.foldl_cons, turns]
    generalize hfirst : deliverTo router m (report, s) handler = first at *
    generalize hfirst' : deliverTo router' m (report, s') handler = first' at *
    obtain ⟨report₁, s₁⟩ := first
    obtain ⟨report₁', s₁'⟩ := first'
    cases hreport
    obtain ⟨hturns, hlast⟩ := ih hrest report₁ hready hready' hnext
    exact ⟨.cons hturn hturns, hlast⟩

end Twins

section Hosts

variable {h h' : Host σ M}

/-- The turns of the handlers of a message in a live delivery. -/
def turnsOf (h : Host σ M) (m : M) : List (Handler σ M × Delivery σ M) :=
  turns h.router m (h.handlersOf (Message.type m)) ({}, h.engine.delivery false)

/-- Whether two hosts have the same handlers and services, only definitions whose actions only send,
and alike engines. -/
structure Twin (h h' : Host σ M) : Prop where
  application : h'.router.application = h.router.application
  handlers : ∀ trigger, h'.handlersOf trigger = h.handlersOf trigger
  sends : ∀ trigger, ∀ handler ∈ h.handlersOf trigger, Sends handler
  registry : h.engine.registry.Only Request.OnlySends
  alike : h.engine.Alike h'.engine

/-- A live delivery to twins takes the same course in both, and leaves them twins. -/
lemma Twin.deliver (htwin : Twin h h') (m : M) :
    List.Forall₂ (SameTurn h.router h'.router m) (h.turnsOf m) (h'.turnsOf m) ∧
      (h.deliver m false).1 = (h'.deliver m false).1 ∧
      Twin (h.deliver m false).2 (h'.deliver m false).2 := by
  have hs : Ready (h.engine.delivery false) := ⟨rfl, rfl, htwin.registry⟩
  have hs' : Ready (h'.engine.delivery false) := by
    refine ⟨rfl, rfl, ?_⟩
    show h'.engine.registry.Only _
    rw [← htwin.alike.registry]
    exact htwin.registry
  unfold turnsOf Host.deliver
  rw [htwin.handlers]
  cases hhandlers : h.handlersOf (Message.type m) with
  | nil =>
    refine ⟨.nil, rfl, htwin.application, htwin.handlers, htwin.sends, htwin.registry, ?_⟩
    exact ⟨htwin.alike.states, htwin.alike.outbox, htwin.alike.options, htwin.alike.registry,
      htwin.alike.app⟩
  | cons handler rest =>
    have hsends := htwin.sends (Message.type m)
    rw [hhandlers] at hsends
    obtain ⟨hturns, hreport, hend, hready, hready'⟩ :=
      deliverAll_alike htwin.application hsends {} hs hs' htwin.alike
    refine ⟨hturns, ?_, htwin.application, htwin.handlers, htwin.sends, hready.registry, hend⟩
    exact Prod.ext hreport (hready.live.trans hready'.live.symm)

/-- The clocks of twins may differ. -/
lemma Twin.tick (htwin : Twin h h') (now now' : Timestamp) :
    Twin (h.step (.tick now)) (h'.step (.tick now')) where
  application := htwin.application
  handlers := htwin.handlers
  sends := htwin.sends
  registry := htwin.registry
  alike := ⟨htwin.alike.states, htwin.alike.outbox, htwin.alike.options, htwin.alike.registry,
    htwin.alike.app⟩

/-- The host after messages were delivered live one after the other, each at its time. -/
def served (h : Host σ M) (rounds : List (Timestamp × M)) : Host σ M :=
  rounds.foldl (fun h round => ((h.step (.tick round.1)).deliver round.2 false).2) h

/-- Serving messages leaves a host its router. -/
lemma served_router (h : Host σ M) (rounds : List (Timestamp × M)) :
    (h.served rounds).router = h.router := by
  induction rounds generalizing h with
  | nil => rfl
  | cons round rest ih => exact ih _

/-- Twins that are delivered the same messages stay twins. -/
lemma Twin.served (htwin : Twin h h') {rounds rounds' : List (Timestamp × M)}
    (hsame : rounds.map Prod.snd = rounds'.map Prod.snd) :
    Twin (h.served rounds) (h'.served rounds') := by
  induction rounds generalizing h h' rounds' with
  | nil =>
    rw [List.map_nil, eq_comm, List.map_eq_nil_iff] at hsame
    rw [hsame]
    exact htwin
  | cons round rest ih =>
    obtain ⟨round', rest', rfl, hround, hrest⟩ := List.map_eq_cons_iff.1 hsame.symm
    have hnext : Twin ((h.step (.tick round.1)).deliver round.2 false).2
        ((h'.step (.tick round'.1)).deliver round'.2 false).2 := by
      rw [hround]
      exact ((htwin.tick round.1 round'.1).deliver round.2).2.2
    exact ih hnext hrest.symm

end Hosts

section Subscriptions

/-- The host over a store to which definitions have subscribed. -/
def opened (router : Router σ M) (store : Store) (app : σ)
    (subscriptions : List (Definition σ M × MessageType)) : Host σ M :=
  run { engine := { store, app }, router } (subscriptions.map fun s => .subscribe s.1 s.2)

omit [Message M] in
/-- Subscribing does not look at the router. -/
lemma final_subscribe (h : Host σ M) (router : Router σ M) (d : Definition σ M)
    (trigger : MessageType) :
    Run.final (subscribe d trigger { h with router }) =
      { Run.final (subscribe d trigger h) with router } := by
  have hget : ∀ (h : Host σ M) (f : Host σ M → EStateM EngineError (Host σ M) Unit),
      (get >>= f) h = f h h := fun _ _ => rfl
  have htaken : nameTaken { h with router } d.id = h.nameTaken d.id := rfl
  unfold subscribe
  rw [hget, hget, htaken]
  cases h.nameTaken d.id with
  | true => rfl
  | false =>
    simp only [Bool.false_eq_true, if_false, bind, EStateM.bind, onEngine]
    cases Registry.blueprint d trigger { h.engine with } <;> rfl

/-- Opening a host with another router gives the same host but for the router. -/
lemma opened_rerouted (router router' : Router σ M) (store : Store) (app : σ)
    (subscriptions : List (Definition σ M × MessageType)) :
    opened router' store app subscriptions =
      { opened router store app subscriptions with router := router' } := by
  have hrun : ∀ h : Host σ M,
      run { h with router := router' } (subscriptions.map fun s => .subscribe s.1 s.2) =
        { run h (subscriptions.map fun s => .subscribe s.1 s.2) with router := router' } := by
    induction subscriptions with
    | nil => exact fun _ => rfl
    | cons s rest ih =>
      intro h
      show run (Run.final (subscribe s.1 s.2 { h with router := router' })) _ = _
      rw [final_subscribe, ih]
      rfl
  exact hrun { engine := { store, app }, router }

/-- Definitions whose actions only send are the handlers of a host to which nothing else subscribed.
-/
lemma opened_sends (router : Router σ M) (store : Store) (app : σ)
    {subscriptions : List (Definition σ M × MessageType)}
    (hsends : ∀ s ∈ subscriptions, s.1.RulesOnly Request.OnlySends) :
    let h := opened router store app subscriptions
    (∀ trigger, ∀ handler ∈ h.handlersOf trigger, Sends handler) ∧
      h.engine.registry.Only Request.OnlySends ∧ h.router = router := by
  refine run_keeps (I := fun h : Host σ M =>
    (∀ trigger, ∀ handler ∈ h.handlersOf trigger, Sends handler) ∧
      h.engine.registry.Only Request.OnlySends ∧ h.router = router) ?_ ⟨nofun, nofun, rfl⟩
  rintro h event hmem ⟨hhandlers, hregistry, hrouter⟩
  obtain ⟨⟨d, trigger⟩, hsub, rfl⟩ := List.mem_map.1 hmem
  have hd := hsends _ hsub
  show (∀ other, ∀ handler ∈ (Run.final (subscribe d trigger h)).handlersOf other,
    Sends handler) ∧ _
  rcases subscribe_cases h d trigger with ⟨e, hrefused⟩ | ⟨h', haccepted, hafter⟩
  · show _ ∧ (Run.final (subscribe d trigger h)).engine.registry.Only Request.OnlySends ∧
      (Run.final (subscribe d trigger h)).router = router
    rw [hrefused]
    exact ⟨hhandlers, hregistry, hrouter⟩
  · show _ ∧ (Run.final (subscribe d trigger h)).engine.registry.Only Request.OnlySends ∧
      (Run.final (subscribe d trigger h)).router = router
    rw [haccepted]
    obtain ⟨b, registry, log, horigin, hengine⟩ := hafter.engine
    refine ⟨fun other handler hhandler => ?_, ?_, hafter.router.trans hrouter⟩
    · rw [Run.final_ok, hafter.handlers] at hhandler
      split at hhandler
      · rcases List.mem_append.1 hhandler with hold | hnew
        · exact hhandlers other handler hold
        · exact ⟨d, List.mem_singleton.1 hnew, hd⟩
      · exact hhandlers other handler hhandler
    · rw [Run.final_ok, hengine]
      exact (hregistry.of_origin hd horigin).2

end Subscriptions

/-- Whether an ignored message has the row written back cannot be told from outside. Two hosts over
equal stores, with the same definitions subscribed whose actions only send, are delivered the same
messages one after the other: whatever each of them does about unchanged rows, their reports and
their outboxes are the same, their rows have the same keys and states, and every dispatch starts the
same actions and has the same outcome up to the flag. -/
theorem persistUnchanged_unobservable (router : Router σ M) (options : DispatchOptions)
    (store : Store) (app : σ) {subscriptions : List (Definition σ M × MessageType)}
    (hsends : ∀ s ∈ subscriptions, s.1.RulesOnly Request.OnlySends)
    {rounds rounds' : List (Timestamp × M)} (hsame : rounds.map Prod.snd = rounds'.map Prod.snd)
    (m : M) (now now' : Timestamp) :
    let h := ((opened router store app subscriptions).served rounds).step (.tick now)
    let h' := ((opened { router with options } store app subscriptions).served rounds').step
      (.tick now')
    h.engine.Alike h'.engine ∧
      List.Forall₂ (SameTurn router { router with options } m) (h.turnsOf m) (h'.turnsOf m) ∧
      (h.deliver m false).1 = (h'.deliver m false).1 ∧
      (h.deliver m false).2.engine.Alike (h'.deliver m false).2.engine := by
  intro h h'
  obtain ⟨hhandlers, hregistry, hrouter⟩ := opened_sends router store app hsends
  have hopened : Twin (opened router store app subscriptions)
      (opened { router with options } store app subscriptions) := by
    rw [opened_rerouted router { router with options }]
    refine ⟨?_, fun _ => rfl, hhandlers, hregistry, .refl _⟩
    show router.application = (opened router store app subscriptions).router.application
    rw [hrouter]
  have hrouted : h.router = router := (served_router _ _).trans hrouter
  have hrouted' : h'.router = { router with options } := by
    refine (served_router _ _).trans ?_
    rw [opened_rerouted router { router with options }]
  have htwin : Twin h h' := (hopened.served hsame).tick now now'
  obtain ⟨hturns, hreport, hnext⟩ := htwin.deliver m
  rw [hrouted, hrouted'] at hturns
  exact ⟨htwin.alike, hturns, hreport, hnext.alike⟩

end Host

namespace Announcing
open Pipeline

/-- The announcing workflow, subscribed to both of its messages. -/
def subscriptions : List (Definition Unit JobMessage × MessageType) :=
  [(definition, Event.start.type), (definition, Event.complete.type)]

/-- The subscribed definitions only send. -/
lemma subscriptions_send : ∀ s ∈ subscriptions, s.1.RulesOnly Request.OnlySends := by
  have hdefinition : definition.RulesOnly Request.OnlySends := by
    have hannounce : ∀ text m, (announce text m).Only Request.OnlySends :=
      fun _ _ => Script.Only.ask trivial
    refine List.forall_mem_cons.2 ⟨?start, List.forall_mem_cons.2 ⟨?on, ?selectors⟩⟩
    case start => exact List.forall_mem_cons.2 ⟨hannounce _, nofun⟩
    case on =>
      exact List.forall_mem_cons.2 ⟨hannounce _, List.forall_mem_cons.2 ⟨hannounce _, nofun⟩⟩
    case selectors => exact List.forall_mem_cons.2 ⟨nofun, List.forall_mem_cons.2 ⟨nofun, nofun⟩⟩
  exact List.forall_mem_cons.2 ⟨hdefinition, List.forall_mem_cons.2 ⟨hdefinition, nofun⟩⟩

/-- A job that is started twice has its row written twice by one host and once by the other; for the
rest they are alike, and they answer alike when the job completes. -/
theorem announcing_unobservable :
    let start : JobMessage := ⟨.start, "7"⟩
    let h := ((Host.opened {} {} () subscriptions).served [(1, start), (2, start)]).step (.tick 3)
    let h' := ((Host.opened { options := ⟨false⟩ } {} () subscriptions).served
      [(4, start), (5, start)]).step (.tick 6)
    (∀ s ∈ subscriptions, s.1.RulesOnly Request.OnlySends) ∧ h.engine.Alike h'.engine ∧
      (h.deliver ⟨.complete, "7"⟩ false).1 = (h'.deliver ⟨.complete, "7"⟩ false).1 ∧
      h.engine.store.commits = 2 ∧ h'.engine.store.commits = 1 := by
  intro start h h'
  have hsame : ([(1, start), (2, start)] : List (Timestamp × JobMessage)).map Prod.snd =
      ([(4, start), (5, start)] : List (Timestamp × JobMessage)).map Prod.snd := rfl
  obtain ⟨halike, -, hreport, -⟩ := Host.persistUnchanged_unobservable {} ⟨false⟩ {} ()
    subscriptions_send hsame ⟨.complete, "7"⟩ 3 6
  refine ⟨subscriptions_send, halike, hreport, ?_, ?_⟩
  · decide +kernel
  · decide +kernel

end Announcing

end Saga
