import Saga.Pipeline
import Saga.Proofs.Blueprint.Compile
import Saga.Proofs.Dispatch.Idle
import Saga.Proofs.Script.Effects

/-!
# Failure atomicity

A dispatch whose actions stay inside their delivery reaches the store only with its own commit,
which is its last request that can fail. So a dispatch that fails, at whatever stage, leaves the
store exactly as it was, and so does one whose outcome has no write (`dispatch_leaves_store`).
-/

namespace Saga

variable {σ M : Type}

/-- A script that stays inside its delivery leaves the store as it is. -/
lemma Script.Only.run_store {ε α : Type} {scope : Scope σ M} (h : scope.services.OfSession)
    {script : Script σ M ε α} (hscript : script.Only Request.StaysInside) (s : Delivery σ M) :
    (Run.final (script.run scope s)).store = s.store := by
  refine run_does (I := fun s' => s'.store = s.store) h (fun _ hr => hr.not_forwards) ?_ ?_ hscript
    s rfl
  · exact fun _ _ hs' => hs'
  · exact fun _ _ _ _ hr hdoes hs' => (hdoes.store hr).trans hs'

namespace Definition
open Script

variable [Message M] {d : Definition σ M} {options : DispatchOptions} {scope : Scope σ M}
  {b : Blueprint σ M d.states} {m : M} {key : InstanceKey}

/-- Reacting to what was found asks for what the actions ask for, and stages one row. -/
lemma react_only_of {p : Request M → Prop} (hp : ∀ r, r.StaysInside → p r) (hb : b.Only p m)
    (options : DispatchOptions) (key : InstanceKey) (found : Option InstanceRecord) :
    (d.react options b key m found).Only p := by
  have hcheck : p .isCancelled := hp .isCancelled trivial
  have hadd : ∀ record, p (.add record) := fun record => hp (.add record) trivial
  have hupdate : ∀ record, p (.update record) := fun record => hp (.update record) trivial
  have hreport : ∀ entry, p (.report entry) := fun entry => hp (.report entry) trivial
  have hlive : (Script.checkLive : Script σ M EngineError Unit).Only p := Only.checkLive hcheck
  cases found with
  | none =>
    refine (hb.start hcheck).bind fun initial => ?_
    cases initial with
    | none => exact (Only.ask (hreport _)).bind fun _ => trivial
    | some initial => exact hlive.bind fun _ => (Only.ask (hadd _)).bind fun _ => trivial
  | some record =>
    refine (Only.ofExcept _).bind fun current => (hb.transfer hcheck current).bind fun next => ?_
    split
    · exact hlive.bind fun _ => (Only.ask (hupdate _)).bind fun _ => trivial
    · refine (Only.ask (hreport _)).bind fun _ => ?_
      split
      · exact hlive.bind fun _ => (Only.ask (hupdate _)).bind fun _ => trivial
      · trivial

/-- Reacting commits nothing and forwards nothing, if the actions do not. -/
lemma react_only (hb : b.Only Request.StaysInside m) (options : DispatchOptions)
    (key : InstanceKey) (found : Option InstanceRecord) :
    (d.react options b key m found).Only Request.StaysInside :=
  react_only_of (fun _ hr => hr) hb options key found

/-- The script of a dispatch forwards nothing if the actions do not. -/
lemma script_only (hb : b.Only (fun r => ¬ r.Forwards) m) :
    (d.script options b m).Only fun r => ¬ r.Forwards := by
  have hconclude : ∀ outcome : Outcome d.states,
      (d.conclude outcome : Script σ M EngineError _).Only fun r => ¬ r.Forwards := by
    intro outcome
    unfold Definition.conclude
    split
    · exact (Only.ask nofun).bind fun _ => (Only.ask nofun).bind fun _ => trivial
    · trivial
  rw [script_eq]
  refine (locate_only (fun _ => nofun) (fun _ => nofun) nofun).bind fun located => ?_
  exact (react_only_of (fun _ hr => hr.not_forwards) hb options located.1 located.2).bind hconclude

/-- A script of a dispatch that fails leaves the store as it was. -/
lemma script_error (hservices : scope.services.OfSession) (hb : b.Only Request.StaysInside m)
    {s s' : Delivery σ M} {e : EngineError} (h : (d.script options b m).run scope s = .error e s') :
    s'.store = s.store := by
  rw [script_eq, run_bind] at h
  rcases locate_run (d := d) (b := b) (m := m) hservices s with
    ⟨e', hlocate⟩ | ⟨key, -, -, -, hlocate⟩
  · rw [hlocate] at h
    cases h
    rfl
  · simp only [hlocate, run_bind] at h
    have honly := react_only hb options key (s.session.read s.store key)
    have hstore := honly.run_store hservices s
    cases hreact : (d.react options b key m (s.session.read s.store key)).run scope s with
    | error e' s1 =>
      rw [hreact] at h hstore
      cases h
      exact hstore
    | ok outcome s1 =>
      rw [hreact] at h hstore
      change (d.conclude outcome).run scope s1 = .error e s' at h
      -- Here only the commit can fail, and then it has changed nothing.
      cases hwrites : outcome.writes with
      | false =>
        rw [conclude_of_not_writes hwrites] at h
        cases h
      | true =>
        rcases conclude_run hservices hwrites s1 with ⟨e', hconclude⟩ | ⟨s2, -, hconclude⟩
        · rw [hconclude] at h
          cases h
          exact hstore
        · rw [hconclude] at h
          cases h

/-- A script of a dispatch whose outcome has no write has run no action and done nothing but write
to the log. -/
lemma script_silent (hservices : scope.services.OfSession) {s s' : Delivery σ M}
    {outcome : Outcome d.states} (h : (d.script options b m).run scope s = .ok outcome s')
    (hwrites : outcome.writes = false) :
    d.RunsNoAction options scope b m s ∧ ∃ text, s' = s.logged .debug .dispatcher text := by
  obtain ⟨key, s1, -, -, hlocate, hreact, hconclude⟩ := script_eq_ok hservices h
  obtain ⟨hunmatched, htext⟩ := react_silent hreact hwrites
  rw [conclude_of_not_writes hwrites] at hconclude
  cases hconclude
  exact ⟨runsNoAction_of_unmatched hlocate hunmatched, htext⟩

/-- A dispatch in a fresh session leaves the store as it was when it fails, at whatever stage, and
when its outcome has no write; in the latter case no action ran, and nothing is staged. -/
theorem dispatch_leaves_store (d : Definition σ M) (options : DispatchOptions) (scope : Scope σ M)
    (engine : Engine σ M) (cancelled : Bool) (m : M) (hservices : scope.services.OfSession)
    (hactions : d.Only Request.StaysInside engine.registry m) :
    (∀ e s, d.dispatch options scope m (engine.delivery cancelled) = .error e s →
      s.store = engine.store) ∧
    ∀ outcome s, d.dispatch options scope m (engine.delivery cancelled) = .ok outcome s →
      ((∃ id, outcome = .dropped id) ∨ ∃ id state, outcome = .ignored id state false) →
      s.store = engine.store ∧ s.session = {} ∧ s.app = engine.app ∧
        ∃ b fetched,
          Registry.blueprint d (Message.type m) (engine.delivery cancelled) = .ok b fetched ∧
            d.RunsNoAction options scope b m fetched := by
  rcases Registry.blueprint_cases d (Message.type m) (engine.delivery cancelled) with
    ⟨e', hfetch⟩ | ⟨b, registry, log, hfetch, horigin⟩
  · constructor
    · intro e s h
      rw [dispatch_apply, hfetch] at h
      cases h
      rfl
    · intro outcome s h
      rw [dispatch_apply, hfetch] at h
      cases h
  · have hb : b.Only Request.StaysInside m := hactions.of_origin horigin
    constructor
    · intro e s h
      rw [dispatch_apply, hfetch] at h
      exact script_error hservices hb h
    · intro outcome s h hsilent
      rw [dispatch_apply, hfetch] at h
      have hwrites : outcome.writes = false := by
        rcases hsilent with ⟨id, rfl⟩ | ⟨id, state, rfl⟩ <;> rfl
      obtain ⟨hnone, text, rfl⟩ := script_silent hservices h hwrites
      exact ⟨rfl, rfl, rfl, b, _, hfetch, hnone⟩

end Definition

namespace Halting
open Pipeline

/-- A workflow whose startup rule stages a row and a message of its own before it fails. -/
def definition : Definition Unit JobMessage where
  id := ⟨"halting", 0⟩
  states := stages
  rules := [
    .start Event.start.type stages.processing [
      fun m => Script.add (.fresh ⟨m.id, "worker"⟩ 0),
      fun m => Script.ask (.send ⟨.command, "Assign", .str m.id⟩),
      fun _ => Script.fail (.text "no worker")],
    .on stages.processing Event.heartbeat.type [.action idle],
    .correlate Event.start.type JobMessage.id,
    .correlate Event.heartbeat.type JobMessage.id]

/-- An engine that has seen commits before. -/
def engine : Engine Unit JobMessage where
  store := {
    table := .ofList [⟨⟨⟨"6", "halting"⟩, 1, 4⟩, 10, 20⟩]
    outbox := [⟨.notification, "Started", .str "6"⟩]
    commits := 2 }
  app := ()

/-- A scope without other definitions. -/
def scope : Scope Unit JobMessage := ⟨.ofSession [], fun _ _ => throw .cancelled⟩

/-- The actions of the workflow neither commit nor forward. -/
lemma only (m : JobMessage) : definition.Only Request.StaysInside engine.registry m := by
  refine Definition.Only.of_rules ?_ rfl
  refine List.forall_mem_cons.2 ⟨?start, List.forall_mem_cons.2 ⟨?on, ?selectors⟩⟩
  case start =>
    refine List.forall_mem_cons.2 ⟨Script.Only.ask trivial, ?_⟩
    refine List.forall_mem_cons.2 ⟨Script.Only.ask trivial, ?_⟩
    exact List.forall_mem_cons.2 ⟨trivial, nofun⟩
  case on => exact List.forall_mem_cons.2 ⟨trivial, nofun⟩
  case selectors =>
    refine List.forall_mem_cons.2 ⟨nofun, ?_⟩
    exact List.forall_mem_cons.2 ⟨nofun, nofun⟩

/-- Starting a job fails with a row and a message staged, and a heartbeat of an unknown job is
dropped; the store is what it was after both. -/
theorem halting_leaves_store :
    scope.services.OfSession ∧ (∀ m, definition.Only Request.StaysInside engine.registry m) ∧
      (∃ e s, definition.dispatch {} scope ⟨.start, "7"⟩ (engine.delivery false) = .error e s ∧
        s.session.writes.length = 1 ∧ s.session.messages.length = 1 ∧ s.store = engine.store) ∧
      ∃ s, definition.dispatch {} scope ⟨.heartbeat, "7"⟩ (engine.delivery false) =
        .ok (.dropped "7") s ∧ s.store = engine.store ∧ s.session = {} := by
  have hservices : scope.services.OfSession := (Services.complete_ofSession []).ofSession
  have hstart :
      (Run.result (definition.dispatch {} scope ⟨.start, "7"⟩ (engine.delivery false))).toOption =
        none := by decide +kernel
  have hstaged :
      let s := Run.final (definition.dispatch {} scope ⟨.start, "7"⟩ (engine.delivery false))
      s.session.writes.length = 1 ∧ s.session.messages.length = 1 := by decide +kernel
  have hheartbeat :
      (Run.result (definition.dispatch {} scope ⟨.heartbeat, "7"⟩
        (engine.delivery false))).toOption = some (.dropped "7") := by decide +kernel
  refine ⟨hservices, only, ?_, ?_⟩
  · obtain ⟨hstore, -⟩ :=
      Definition.dispatch_leaves_store definition {} scope engine false ⟨.start, "7"⟩ hservices
        (only _)
    cases h : definition.dispatch {} scope ⟨.start, "7"⟩ (engine.delivery false) with
    | ok outcome s =>
      rw [h] at hstart
      cases hstart
    | error e s =>
      rw [h] at hstaged
      exact ⟨e, s, rfl, hstaged.1, hstaged.2, hstore e s h⟩
  · obtain ⟨-, hsilent⟩ :=
      Definition.dispatch_leaves_store definition {} scope engine false ⟨.heartbeat, "7"⟩ hservices
        (only _)
    cases h : definition.dispatch {} scope ⟨.heartbeat, "7"⟩ (engine.delivery false) with
    | ok outcome s =>
      rw [h] at hheartbeat
      cases hheartbeat
      obtain ⟨hstore, hsession, -⟩ := hsilent _ s h (.inl ⟨"7", rfl⟩)
      exact ⟨s, rfl, hstore, hsession⟩
    | error e s =>
      rw [h] at hheartbeat
      cases hheartbeat

end Halting

end Saga
