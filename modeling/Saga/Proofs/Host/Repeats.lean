import Mathlib.Algebra.Order.BigOperators.Group.List
import Mathlib.Algebra.Order.Ring.Nat
import Saga.Proofs.Dispatch.Counting
import Saga.Proofs.Host.Order

/-!
# Subscriptions that are repeated

The handlers of a message type are the subscriptions to it that were accepted, in their order, a
repeated one as often as it was accepted (`Host.handlersOf_run`). So a message is dispatched to a
definition as often as the definition has subscribed to its type: once if it has done so once, but
twice if it has done so twice (`Host.dispatched_as_subscribed`).
-/

namespace Saga

variable {σ M : Type} [Message M]

namespace Host

variable {h : Host σ M} {m : M} {router : Router σ M}

section Accepted

/-- What a host accepts when something happens to it. -/
def admitted (h : Host σ M) : Event σ M → List (Definition σ M × MessageType)
  | .subscribe d trigger => if (Run.result (subscribe d trigger h)).isOk then [(d, trigger)] else []
  | _ => []

/-- The subscriptions that a host accepts while things happen to it, in their order. -/
def accepted (h : Host σ M) : List (Event σ M) → List (Definition σ M × MessageType)
  | [] => []
  | event :: rest => h.admitted event ++ (h.step event).accepted rest

omit [Message M] in
/-- Subscriptions in two parts give the subscribers of the first part and then those of the
second. -/
lemma subscribers_append (first second : List (Definition σ M × MessageType))
    (trigger : MessageType) :
    subscribers (first ++ second) trigger =
      subscribers first trigger ++ subscribers second trigger := by
  simp [subscribers]

/-- What is accepted joins the handlers, and nothing else does. -/
lemma handlersOf_step (h : Host σ M) (event : Event σ M) (trigger : MessageType) :
    (h.step event).handlersOf trigger =
      h.handlersOf trigger ++ subscribers (h.admitted event) trigger := by
  have silent : h.handlersOf trigger = h.handlersOf trigger ++ subscribers [] trigger :=
    (List.append_nil _).symm
  cases event with
  | subscribe d other =>
    rcases subscribe_cases h d other with ⟨e, hrefused⟩ | ⟨h', haccepted, hafter⟩
    · simp only [step, admitted, hrefused]
      exact silent
    · simp only [step, admitted, haccepted]
      show h'.handlersOf trigger = h.handlersOf trigger ++ subscribers [(d, other)] trigger
      rw [hafter.handlers]
      by_cases htrigger : other = trigger <;> simp [subscribers, htrigger]
  | deliver m cancelled => exact silent
  | overlap moves => exact silent
  | tick now => exact silent
  | drain => exact silent

/-- The handlers of a message type are those that were there and the subscriptions to it that were
accepted since. -/
lemma handlersOf_run (h : Host σ M) (events : List (Event σ M)) (trigger : MessageType) :
    (h.run events).handlersOf trigger =
      h.handlersOf trigger ++ subscribers (h.accepted events) trigger := by
  induction events generalizing h with
  | nil => exact (List.append_nil _).symm
  | cons event rest ih =>
    show ((h.step event).run rest).handlersOf trigger = _
    rw [ih, handlersOf_step, accepted, subscribers_append, List.append_assoc]

omit [Message M] in
/-- A definition is among the handlers of a message type as often as it has subscribed to it. -/
lemma countP_subscribers (subscriptions : List (Definition σ M × MessageType))
    (trigger : MessageType) (id : DefinitionId) :
    ((subscriptions.filter fun s => s.2 = trigger).map Prod.fst).countP (fun d => d.id = id) =
      (subscriptions.map fun s => (s.1.id, s.2)).count (id, trigger) := by
  rw [List.countP_map, List.countP_filter, List.count, List.countP_map]
  refine List.countP_congr fun s _ => ?_
  simp

end Accepted

section Dispatches

/-- The definition whose handler this is. -/
def definition? : Handler σ M → Option (Definition σ M)
  | .workflow d => some d
  | .custom _ _ => none

/-- The dispatches among the turns of handlers: whose they are, and from where they set out. -/
def dispatchesOf (turns : List (Handler σ M × Delivery σ M)) :
    List (Definition σ M × Delivery σ M) :=
  turns.filterMap fun t => (definition? t.1).map fun d => (d, t.2)

/-- The dispatches of a message that is delivered, one after the other. -/
def dispatches (h : Host σ M) (m : M) (cancelled : Bool) :
    List (Definition σ M × Delivery σ M) :=
  dispatchesOf (turns h.router m (h.handlersOf (Message.type m)) ({}, h.engine.delivery cancelled))

omit [Message M] in
/-- The dispatches among the turns are those of the definitions among the handlers. -/
lemma dispatchesOf_map_fst (turns : List (Handler σ M × Delivery σ M)) :
    (dispatchesOf turns).map Prod.fst = (turns.map Prod.fst).filterMap definition? := by
  rw [dispatchesOf, List.map_filterMap, List.filterMap_map]
  refine List.filterMap_congr fun t _ => ?_
  cases h : definition? t.1 <;> simp [h]

omit [Message M] in
/-- The handlers of definitions are of these definitions. -/
lemma filterMap_definition?_workflow (definitions : List (Definition σ M)) :
    (definitions.map Handler.workflow).filterMap definition? = definitions := by
  rw [List.filterMap_map]
  exact List.filterMap_some

/-- The dispatches of definitions are theirs, in their order. -/
lemma dispatches_map_fst {definitions : List (Definition σ M)}
    (hhandlers : h.handlersOf (Message.type m) = definitions.map .workflow) (cancelled : Bool) :
    (h.dispatches m cancelled).map Prod.fst = definitions := by
  rw [dispatches, dispatchesOf_map_fst, turns_map_fst, hhandlers, filterMap_definition?_workflow]

/-- A delivery reports every handler once, under its name. -/
lemma report_names (h : Host σ M) (m : M) (cancelled : Bool) :
    let report := (h.deliver m cancelled).1.1
    (report.handled.map Prod.fst ++ report.failed.map Prod.fst).Perm
      ((h.handlersOf (Message.type m)).map Handler.name) := by
  intro report
  let progress : Report × Delivery σ M := ({}, h.engine.delivery cancelled)
  have hreport : report = _ := report_of_turns h m cancelled
  have hnames := congrArg (List.map Handler.name)
    (turns_map_fst h.router m (h.handlersOf (Message.type m)) progress)
  rw [List.map_map] at hnames
  rw [hreport, ← hnames]
  refine (Ending.names_perm _).trans (.of_eq ?_)
  exact List.map_map

/-- Dispatches that forward nothing raise the commits of the store by their own. -/
lemma commits_turns (router : Router σ M) (m : M) (definitions : List (Definition σ M))
    (progress : Report × Delivery σ M)
    (hquiet : ∀ t ∈ dispatchesOf (turns router m (definitions.map .workflow) progress),
      ∀ b fetched, Registry.blueprint t.1 (Message.type m) t.2 = .ok b fetched →
        b.Only (fun r => ¬ r.Forwards) m) :
    ((definitions.map .workflow).foldl (deliverTo router m) progress).2.store.commits =
      progress.2.store.commits +
        ((dispatchesOf (turns router m (definitions.map .workflow) progress)).map fun t =>
          t.1.ownCommits router.options router.scope m t.2).sum := by
  induction definitions generalizing progress with
  | nil => rfl
  | cons d rest ih =>
    obtain ⟨report, s⟩ := progress
    obtain ⟨hfirst, hrest⟩ := List.forall_mem_cons.1 hquiet
    obtain ⟨log, hrun⟩ := deliverTo_run router m report s (.workflow d)
    have hcommits : (deliverTo router m (report, s) (.workflow d)).2.store.commits =
        s.store.commits +
          d.ownCommits router.options router.scope m { s with session := {} } := by
      rw [hrun, (handle_run router m d _).2]
      exact Definition.dispatch_commits router.services_complete.ofSession hfirst
    show ((rest.map .workflow).foldl (deliverTo router m)
      (deliverTo router m (report, s) (.workflow d))).2.store.commits = _
    rw [ih _ hrest, hcommits, Nat.add_assoc]
    rfl

/-- Whether the dispatch in some place of a delivery is one of a definition and comes to start an
action of the matching rule, which one by its number, and in which state. -/
def StartsIn (h : Host σ M) (m : M) (cancelled : Bool) (id : DefinitionId) (place index : Nat)
    (action : Action σ M) (s : Delivery σ M) : Prop :=
  ∃ d start b fetched, (h.dispatches m cancelled)[place]? = some (d, start) ∧ d.id = id ∧
    Registry.blueprint d (Message.type m) start = .ok b fetched ∧
    d.Starts h.router.scope b m fetched index action s

/-- A definition to which a message is dispatched at most once starts each action at most once. -/
lemma StartsIn.unique {cancelled : Bool} {id : DefinitionId}
    (honce : (h.dispatches m cancelled).countP (fun t => t.1.id = id) ≤ 1)
    {place place' index : Nat} {action action' : Action σ M} {s s' : Delivery σ M}
    (hstarts : h.StartsIn m cancelled id place index action s)
    (hstarts' : h.StartsIn m cancelled id place' index action' s') :
    place = place' ∧ action = action' ∧ s = s' := by
  obtain ⟨d, start, b, fetched, hplace, hid, hfetch, hstarts⟩ := hstarts
  obtain ⟨d', start', b', fetched', hplace', hid', hfetch', hstarts'⟩ := hstarts'
  -- Both starts are in the one dispatch, which takes the actions in order and each of them once.
  obtain rfl : place = place' :=
    index_eq_of_countP_le_one honce hplace hplace' (decide_eq_true hid) (decide_eq_true hid')
  cases hplace.symm.trans hplace'
  cases hfetch.symm.trans hfetch'
  exact ⟨rfl, hstarts.unique hstarts'⟩

end Dispatches

/-- A message is dispatched as often as was subscribed. Whatever has happened to a host, a delivery
dispatches the message once for each subscription to its type that was accepted, in their order, and
reports each of these dispatches once. So each definition has as many dispatches as it has
subscriptions to the type, each of them commits at most once, and if their actions have no other
delivery do anything the store has these commits more and no others. In particular a definition that
has subscribed to the type only once has one dispatch, commits at most once, and starts no action of
its matching rule twice. -/
theorem dispatched_as_subscribed (router : Router σ M) (store : Store) (app : σ)
    (events : List (Event σ M)) (m : M) (cancelled : Bool) :
    let subscriptions := (fresh router store app).accepted events
    let times : DefinitionId → Nat := fun id =>
      (subscriptions.map fun s => (s.1.id, s.2)).count (id, Message.type m)
    let h := (fresh router store app).run events
    let dispatches := h.dispatches m cancelled
    let commits : Definition σ M × Delivery σ M → Nat := fun t =>
      t.1.ownCommits h.router.options h.router.scope m t.2
    let delivered := h.deliver m cancelled
    let report := delivered.1.1
    dispatches.map Prod.fst = (subscriptions.filter fun s => s.2 = Message.type m).map Prod.fst ∧
      (∀ id, dispatches.countP (fun t => t.1.id = id) = times id) ∧
      (report.handled.map Prod.fst ++ report.failed.map Prod.fst).Perm
        (dispatches.map fun t => t.1.id.name) ∧
      (∀ t ∈ dispatches, commits t ≤ 1) ∧
      (∀ id, ((dispatches.filter fun t => t.1.id = id).map commits).sum ≤ times id) ∧
      ((∀ t ∈ dispatches, ∀ b fetched,
          Registry.blueprint t.1 (Message.type m) t.2 = .ok b fetched →
            b.Only (fun r => ¬ r.Forwards) m) →
        delivered.2.engine.store.commits =
          h.engine.store.commits + (dispatches.map commits).sum) ∧
      ∀ id, times id ≤ 1 → ∀ place place' index action action' s s',
        h.StartsIn m cancelled id place index action s →
          h.StartsIn m cancelled id place' index action' s' →
            place = place' ∧ action = action' ∧ s = s' := by
  intro subscriptions times h dispatches commits delivered report
  let definitions := (subscriptions.filter fun s => s.2 = Message.type m).map Prod.fst
  have hhandlers : h.handlersOf (Message.type m) = definitions.map .workflow := by
    rw [handlersOf_run, List.map_map]
    rfl
  have hown : dispatches.map Prod.fst = definitions := dispatches_map_fst hhandlers cancelled
  have htimes : ∀ id, dispatches.countP (fun t => t.1.id = id) = times id := by
    intro id
    have hcount : definitions.countP (fun d => d.id = id) = times id :=
      countP_subscribers subscriptions (Message.type m) id
    rw [← hown, List.countP_map] at hcount
    exact hcount
  have hcommits : ∀ t ∈ dispatches, commits t ≤ 1 := fun t _ =>
    Definition.ownCommits_le_one h.router.services_complete.ofSession h.router.scope_separate t.2
  refine ⟨hown, htimes, ?report, hcommits, ?each, ?all, ?starts⟩
  case report =>
    have hnames : (h.handlersOf (Message.type m)).map Handler.name =
        dispatches.map fun t => t.1.id.name := by
      rw [hhandlers, ← hown, List.map_map, List.map_map]
      rfl
    rw [← hnames]
    exact report_names h m cancelled
  case each =>
    intro id
    -- The commits of a definition are at most one for each of its dispatches.
    have hsum := List.sum_le_card_nsmul ((dispatches.filter fun t => t.1.id = id).map commits) 1
      (List.forall_mem_map.2 fun t ht => hcommits t (List.mem_of_mem_filter ht))
    rw [List.length_map, ← List.countP_eq_length_filter, htimes] at hsum
    exact hsum.trans_eq (Nat.mul_one (times id))
  case all =>
    intro hquiet
    obtain ⟨log, hdeliver⟩ := deliver_eq h m cancelled
    have hturns : dispatches = dispatchesOf
        (turns h.router m (definitions.map .workflow) ({}, h.engine.delivery cancelled)) := by
      rw [← hhandlers]
      rfl
    have hstore := commits_turns h.router m definitions ({}, h.engine.delivery cancelled)
      (hturns ▸ hquiet)
    show (h.deliver m cancelled).2.engine.store.commits = _
    rw [hdeliver, hhandlers, hturns]
    exact hstore
  case starts =>
    intro id honce place place' index action action' s s' hstarts hstarts'
    exact hstarts.unique ((htimes id).trans_le honce) hstarts'

end Host

namespace Charging
open Pipeline Announcing

/-- A workflow that charges for a job by the heartbeat. -/
def definition : Definition Unit JobMessage where
  id := ⟨"charging", 0⟩
  states := stages
  rules := [
    .start Event.start.type stages.processing [],
    .on stages.processing Event.heartbeat.type [.action (announce "Charged")],
    .correlate Event.start.type JobMessage.id,
    .correlate Event.heartbeat.type JobMessage.id]

/-- The actions of the workflow only send. -/
lemma sends : definition.RulesOnly Request.OnlySends := by
  refine List.forall_mem_cons.2 ⟨nofun, List.forall_mem_cons.2 ⟨?on, ?selectors⟩⟩
  case on => exact List.forall_mem_cons.2 ⟨fun _ => Script.Only.ask trivial, nofun⟩
  case selectors => exact List.forall_mem_cons.2 ⟨nofun, List.forall_mem_cons.2 ⟨nofun, nofun⟩⟩

/-- A store with a job that is running. -/
def store : Store := { table := .ofList [⟨⟨⟨"7", "charging"⟩, 1, 1⟩, 10, 10⟩] }

/-- The workflow subscribes to messages, one after the other. -/
def subscribing (messages : List Event) : List (Host.Event Unit JobMessage) :=
  messages.map fun message => .subscribe definition message.type

/-- The host over the store before anything has happened to it. -/
def fresh : Host Unit JobMessage := Host.fresh {} store ()

/-- The job is alive. -/
def heartbeat : JobMessage := ⟨.heartbeat, "7"⟩

/-- The dispatches of a heartbeat forward nothing when the workflow has subscribed to it once. -/
lemma quiet :
    ∀ t ∈ (fresh.run (subscribing [.start, .heartbeat])).dispatches heartbeat false, ∀ b fetched,
      Registry.blueprint t.1 (Message.type heartbeat) t.2 = .ok b fetched →
        b.Only (fun r => ¬ r.Forwards) heartbeat := by
  let h := fresh.run (subscribing [.start, .heartbeat])
  have hdispatches : h.dispatches heartbeat false =
      [(definition, { h.engine.delivery false with session := {} })] := by
    have hhandlers : h.handlersOf (Message.type heartbeat) = [.workflow definition] := rfl
    unfold Host.dispatches
    rw [hhandlers]
    rfl
  intro t ht b fetched hfetch
  rw [hdispatches] at ht
  cases List.mem_singleton.1 ht
  have hsends : ∀ s ∈ [(definition, Event.start.type), (definition, Event.heartbeat.type)],
      s.1.RulesOnly Request.OnlySends :=
    List.forall_mem_cons.2 ⟨sends, List.forall_mem_cons.2 ⟨sends, nofun⟩⟩
  obtain ⟨-, hregistry, -⟩ := Host.opened_sends {} store () hsends
  obtain ⟨registry, log, rfl, horigin⟩ := Registry.blueprint_eq_ok hfetch
  exact ((hregistry.of_origin sends horigin).1 heartbeat).weaken
    fun _ hr => hr.staysInside.not_forwards

/-- A workflow that has subscribed once to each of its messages charges once for a heartbeat: there
is one dispatch, with one commit, and it starts no action twice. -/
theorem charged_once :
    let h := fresh.run (subscribing [.start, .heartbeat])
    let delivered := h.deliver heartbeat false
    (fresh.accepted (subscribing [.start, .heartbeat])).map (fun s => (s.1.id, s.2)) =
        [(definition.id, Event.start.type), (definition.id, Event.heartbeat.type)] ∧
      (h.dispatches heartbeat false).countP (fun t => t.1.id = definition.id) = 1 ∧
      delivered.1.1.handled = [("charging", "7: Processing -> Processing")] ∧
      delivered.2.engine.store.commits = h.engine.store.commits +
        ((h.dispatches heartbeat false).map fun t =>
          t.1.ownCommits h.router.options h.router.scope heartbeat t.2).sum ∧
      delivered.2.engine.store.commits = 1 ∧
      delivered.2.engine.store.outbox.map Envelope.messageType = ["Charged"] ∧
      ∀ place place' index action action' s s',
        h.StartsIn heartbeat false definition.id place index action s →
          h.StartsIn heartbeat false definition.id place' index action' s' →
            place = place' ∧ action = action' ∧ s = s' := by
  intro h delivered
  have hpairs : (fresh.accepted (subscribing [.start, .heartbeat])).map
      (fun s => (s.1.id, s.2)) =
        [(definition.id, Event.start.type), (definition.id, Event.heartbeat.type)] := by
    decide +kernel
  obtain ⟨-, htimes, -, -, -, hcommits, hstarts⟩ := Host.dispatched_as_subscribed {} store ()
    (subscribing [.start, .heartbeat]) heartbeat false
  have honce : ((fresh.accepted (subscribing [.start, .heartbeat])).map
      (fun s => (s.1.id, s.2))).count (definition.id, Message.type heartbeat) = 1 := by
    rw [hpairs]
    decide
  refine ⟨hpairs, (htimes definition.id).trans honce, ?_, hcommits quiet, ?_, ?_,
    hstarts definition.id (Nat.le_of_eq honce)⟩
  · decide +kernel
  · decide +kernel
  · decide +kernel

/-- A workflow that has subscribed twice to the heartbeat charges twice for one: both subscriptions
are accepted, and there are two dispatches, two commits and two messages. -/
theorem charged_twice :
    let events := subscribing [.start, .heartbeat, .heartbeat]
    let h := fresh.run events
    let delivered := h.deliver heartbeat false
    (fresh.accepted events).length = 3 ∧
      (h.dispatches heartbeat false).countP (fun t => t.1.id = definition.id) = 2 ∧
      delivered.1.1.handled = [("charging", "7: Processing -> Processing"),
        ("charging", "7: Processing -> Processing")] ∧
      delivered.2.engine.store.record? ⟨"7", "charging"⟩ = some ⟨⟨"7", "charging"⟩, 1, 3⟩ ∧
      delivered.2.engine.store.commits = 2 ∧
      delivered.2.engine.store.outbox.map Envelope.messageType = ["Charged", "Charged"] := by
  refine ⟨?_, ?_, ?_, ?_, ?_, ?_⟩
  all_goals decide +kernel

end Charging

end Saga
