import Saga.Proofs.Host.Attendance

/-!
# Failing subscribers

On a host that only telling definitions attend, a subscriber that fails leaves no trace but its
entry in the report: the others end as they would if it had never subscribed, and so does the store
(`Host.failures_invisible`).
-/

namespace Saga

variable {σ M : Type} [Message M]

namespace Host

/-- The handlers of a message that succeed in a live delivery, in the order of their turns. -/
def succeeding (h : Host σ M) (m : M) : List (Handler σ M) :=
  ((h.turnsOf m).filter fun t => (ending h.router m t).answer.isOk).map Prod.fst

/-- The host with other handlers for a message type. -/
def withHandlers (h : Host σ M) (trigger : MessageType) (handlers : List (Handler σ M)) :
    Host σ M :=
  { h with handlers := h.handlers.insert trigger handlers }

variable {h : Host σ M} {m : M}

/-- Without the handlers that fail, the others end as they do, and so does the store. -/
lemma Attended.spared (hh : h.Attended) (m : M) :
    let spared := h.withHandlers (Message.type m) (h.succeeding m)
    spared.endings m = (h.endings m).filter (fun e => e.answer.isOk) ∧
      (spared.deliver m false).2.engine.store = (h.deliver m false).2.engine.store := by
  intro spared
  have hhandlers : spared.handlersOf (Message.type m) = h.succeeding m := by
    show ((h.handlers.insert _ _).get? _).getD [] = _
    rw [Keyed.get?_insert, if_pos rfl, Option.getD_some]
  obtain ⟨hendings, hlast⟩ := turns_thinned (m := m) (R := Level h.engine.registry)
    (p := fun t => (ending h.router m t).answer.isOk)
    ({}, h.engine.delivery false) ({}, h.engine.delivery false)
    (fun _ _ _ _ h => ⟨h.store, h.now, h.live, h.live', h.registry, h.registry'⟩)
    (fun handler hmem s s' hs hs' hlevel _ => hlevel.ending_eq hh hmem hs hs')
    (fun handler hmem s s' _ _ hlevel hfails => by
      cases hanswer : (ending h.router m (handler, s)).answer with
      | ok summary =>
        rw [hanswer] at hfails
        cases hfails
      | error e => exact hlevel.of_failed hh hmem hanswer)
    ⟨rfl, rfl, rfl, rfl, rfl, rfl⟩
  refine ⟨?_, ?_⟩
  · unfold endings turnsOf
    rw [hhandlers, List.filter_map]
    exact hendings.symm
  · obtain ⟨log, hdeliver⟩ := deliver_eq h m false
    obtain ⟨log', hspared⟩ := deliver_eq spared m false
    rw [hdeliver, hspared, hhandlers]
    exact hlast.store

/-- A failing subscriber is invisible to the others. On a host whose handlers have come by
subscriptions of telling definitions, whatever has happened to it before and whatever its store has
become since, a live delivery reports every handler of the message once, as one that succeeded or as
one that failed, in the order of their subscriptions. And without those that fail, the others end as
they do, the same are reported to have succeeded, and the store ends the same. -/
theorem failures_invisible (router : Router σ M) (initial store : Store) (app : σ)
    (now : Timestamp) (events : List (Event σ M))
    (htells : ∀ d, (Host.run { engine := { store := initial, app, now }, router } events).Subscribed
      d → d.Tells) (m : M) :
    let past := Host.run { engine := { store := initial, app, now }, router } events
    let h : Host σ M := { past with engine := { past.engine with store } }
    let spared := h.withHandlers (Message.type m) (h.succeeding m)
    let report := (h.deliver m false).1.1
    (h.endings m).map Ending.handler = (h.handlersOf (Message.type m)).map Handler.name ∧
      report.handled = (h.endings m).filterMap Ending.handled? ∧
      report.failed = (h.endings m).filterMap Ending.failed? ∧
      report.handled.length + report.failed.length = h.subscriberCount (Message.type m) ∧
      spared.endings m = (h.endings m).filter (fun e => e.answer.isOk) ∧
      (spared.deliver m false).1.1 = { handled := report.handled, failed := [] } ∧
      (spared.deliver m false).2.engine.store = (h.deliver m false).2.engine.store := by
  intro past h spared report
  have hpast : past.Attended := by
    have hopened : ({ engine := { store := initial, app, now }, router } : Host σ M).Attended :=
      ⟨nofun, nofun⟩
    exact hopened.run htells
  have hh : h.Attended := ⟨hpast.handlers, hpast.tells⟩
  obtain ⟨hendings, hstore⟩ := hh.spared m
  have hreport : report = _ := report_endings h m
  obtain ⟨hhandled, hfailed⟩ := Ending.filterMap_succeeded (h.endings m)
  refine ⟨endings_map_handler h m, ?_, ?_, ?_, hendings, ?_, hstore⟩
  · rw [hreport]
  · rw [hreport]
  · have hnames := congrArg List.length (endings_map_handler h m)
    rw [List.length_map, List.length_map] at hnames
    rw [hreport, Ending.length_filterMap, hnames]
    rfl
  · rw [report_endings, hendings, hhandled, hfailed, hreport]

end Host

namespace Refusing
open Pipeline Announcing

/-- A workflow that tells of a job before it refuses it. -/
def definition : Definition Unit JobMessage where
  id := ⟨"refusing", 0⟩
  states := stages
  rules := [
    .start Event.start.type stages.processing [announce "Tried", fun _ => Script.fail (.text "no")],
    .correlate Event.start.type JobMessage.id]

/-- The actions of the workflow go by the message alone. -/
lemma tells : definition.Tells := by
  refine List.forall_mem_cons.2 ⟨List.forall_mem_cons.2 ⟨announce_tells _, ?_⟩, ?_⟩
  · exact List.forall_mem_cons.2 ⟨fun _ => ⟨trivial, trivial⟩, nofun⟩
  · exact List.forall_mem_cons.2 ⟨nofun, nofun⟩

/-- Both workflows subscribe to the start of a job, the one that refuses it first and last. -/
def events : List (Host.Event Unit JobMessage) := [
  .subscribe definition Event.start.type,
  .subscribe Announcing.definition Event.start.type,
  .deliver ⟨.start, "6"⟩ false,
  .subscribe definition Event.start.type]

/-- The workflow that refuses a job fails twice and the other one starts it; the one message in the
outbox and the one commit are those of a delivery to the other one alone. -/
theorem refusing_invisible :
    let past := Host.run { engine := { store := {}, app := (), now := 5 }, router := {} } events
    let h : Host Unit JobMessage := { past with engine := { past.engine with store := {} } }
    let spared := h.withHandlers Event.start.type (h.succeeding ⟨.start, "7"⟩)
    let report := (h.deliver ⟨.start, "7"⟩ false).1.1
    (∀ d, past.Subscribed d → d.Tells) ∧
      report.handled = [("announcing", "7: started in Processing")] ∧ report.failed.length = 2 ∧
      (spared.deliver ⟨.start, "7"⟩ false).1.1 = { handled := report.handled, failed := [] } ∧
      (spared.deliver ⟨.start, "7"⟩ false).2.engine.store =
        (h.deliver ⟨.start, "7"⟩ false).2.engine.store ∧
      (h.deliver ⟨.start, "7"⟩ false).2.engine.store.commits = 1 := by
  intro past h spared report
  have htells : ∀ d, past.Subscribed d → d.Tells := by
    intro d hd
    obtain ⟨trigger, hmem⟩ := Host.Subscribed.applicant rfl hd
    simp only [events, List.mem_cons, Host.Event.subscribe.injEq, reduceCtorEq, List.not_mem_nil,
      false_or, or_false] at hmem
    rcases hmem with ⟨rfl, -⟩ | ⟨rfl, -⟩ | ⟨rfl, -⟩
    · exact tells
    · exact Announcing.tells
    · exact tells
  obtain ⟨-, -, -, -, -, hspared, hstore⟩ :=
    Host.failures_invisible {} {} {} () 5 events htells ⟨.start, "7"⟩
  refine ⟨htells, ?_, ?_, hspared, hstore, ?_⟩
  · decide +kernel
  · decide +kernel
  · decide +kernel

end Refusing

end Saga
