import Saga.Proofs.Dispatch.Live
import Saga.Proofs.Script.Detached

/-!
# Definitions that only tell

The actions of a telling definition send, publish or fail, and go by nothing but the message
(`Definition.Tells`). So a dispatch is the same wherever the store, the clock and the registry are
(`Definition.script_akin`), and what it comes to does not depend on the state of the application
(`Definition.upshot_app`). It leaves the registry, the clock and the cancellation flag alone
(`Definition.script_keeping`).
-/

namespace Saga

variable {σ M : Type}

/-- Whether a script only sends, publishes, reports or fails, and never goes by the state of the
application. -/
structure Script.Tells {ε α : Type} (s : Script σ M ε α) : Prop where
  sends : s.Only Request.OnlySends
  detached : s.Detached

/-- Whether the actions of a definition go by the message alone, and do no more than send, publish
or fail. -/
def Definition.Tells (d : Definition σ M) : Prop := d.RulesEvery Script.Tells

/-- Actions that go by the message alone only send. -/
lemma Definition.Tells.sends {d : Definition σ M} (h : d.Tells) : d.RulesOnly Request.OnlySends :=
  fun rule hrule run hrun m => (h rule hrule run hrun m).sends

/-- Whether a blueprint is kept for a definition and a message type. -/
def Registry.Keeps (registry : Registry σ M) (d : Definition σ M) (trigger : MessageType)
    (b : Blueprint σ M d.states) : Prop :=
  ∃ cached, registry.lookup ⟨d.id, trigger⟩ = some cached ∧ cached.as? d.states = some b

/-- A blueprint stays kept when the registry grows. -/
lemma Registry.Keeps.mono {registry registry' : Registry σ M} {d : Definition σ M}
    {trigger : MessageType} {b : Blueprint σ M d.states} (h : registry.Keeps d trigger b)
    (hextends : registry'.Extends registry) : registry'.Keeps d trigger b := by
  obtain ⟨cached, hlookup, has⟩ := h
  exact ⟨cached, hextends _ _ hlookup, has⟩

/-- What was fetched is kept. -/
lemma Registry.Origin.keeps {d : Definition σ M} {trigger : MessageType}
    {registry registry' : Registry σ M} {b : Blueprint σ M d.states}
    (h : Registry.Origin d trigger registry b registry') : registry'.Keeps d trigger b := by
  cases h with
  | @kept cached hlookup has => exact ⟨cached, hlookup, has⟩
  | compiled hlookup _ =>
    refine ⟨⟨registry.size, d.states, b⟩, ?_, Registry.as?_self _ b⟩
    simp only [Registry.insertIfAbsent, hlookup]
    rw [Registry.lookup, Keyed.get?_insert, if_pos rfl]

/-- To fetch a blueprint that is kept changes nothing. -/
lemma Registry.Keeps.blueprint {d : Definition σ M} {trigger : MessageType}
    {b : Blueprint σ M d.states} {s : Delivery σ M} (h : s.registry.Keeps d trigger b) :
    Registry.blueprint d trigger s = .ok b s := by
  obtain ⟨cached, hlookup, has⟩ := h
  unfold Registry.blueprint
  rw [getOrBuild_apply, hlookup]
  simp only [expect, has]
  rfl

variable [Message M]

section Every

variable {S : StateSet} {b : Blueprint σ M S} {m : M}

/-- A blueprint of telling actions only sends. -/
lemma Blueprint.Every.sends (h : b.Every Script.Tells m) : b.Only Request.OnlySends m :=
  fun action htriggers => (h action htriggers).sends

/-- The actions of a telling blueprint never go by the state of the application. -/
lemma Blueprint.Every.detached (h : b.Every Script.Tells m) : b.Every Script.Detached m :=
  fun action htriggers => (h action htriggers).detached

end Every

/-- A blueprint that is kept has only actions of the kind that the registry keeps. -/
lemma Registry.Keeps.every {q : Script σ M Failure Unit → Prop} {registry : Registry σ M}
    {d : Definition σ M} {trigger : MessageType} {b : Blueprint σ M d.states}
    (h : registry.Keeps d trigger b) (hregistry : registry.Every q) (m : M) : b.Every q m := by
  obtain ⟨cached, hlookup, has⟩ := h
  exact CachedBlueprint.every_of_as? (hregistry _ _ hlookup m) has

namespace Definition
open Script

variable {d : Definition σ M} {options : DispatchOptions} {scope : Scope σ M}
  {b : Blueprint σ M d.states} {m : M} {s s' : Delivery σ M}

omit [Message M] in
/-- Staging a write does not go by the state of the application. -/
lemma staging_detached {α : Type} (write : StagedWrite) (a : α) :
    (staging write a : Script σ M EngineError α).Detached := by
  refine Detached.checkLive.bind fun _ => ?_
  cases write <;> exact (Detached.ask _).bind fun _ => trivial

/-- Reacting does not go by the state of the application, if no action does. -/
lemma react_detached (hb : b.Every Detached m) (key : InstanceKey)
    (found : Option InstanceRecord) : (d.react options b key m found).Detached := by
  cases hmatching : d.matching? b m found with
  | some actions =>
    obtain ⟨write, outcome, hreact⟩ := react_of_matching options key hmatching
    rw [hreact]
    refine (runActions_detached _ _ m 0 ?_).bind fun _ => staging_detached write outcome
    exact fun action hmem => hb action (triggers_of_matching hmatching hmem)
  | none =>
    cases found with
    | none =>
      have hnone : b.starts.get? (Message.type m) = none := Option.map_eq_none_iff.1 hmatching
      show (d.begin b key m).Detached
      rw [begin_of_none hnone]
      exact (Detached.ask _).bind fun _ => trivial
    | some record =>
      show (d.moveOn options b key m record).Detached
      cases hstate : d.states.ofOrdinal? record.state with
      | none =>
        rw [moveOn_of_unknown hstate]
        trivial
      | some state =>
        have hnone : b.transfers.get? (state, Message.type m) = none := by
          simpa [matching?, hstate] using hmatching
        rw [moveOn_of_none hstate hnone]
        refine (Detached.ask _).bind fun _ => ?_
        split
        · exact staging_detached _ _
        · trivial

/-- The script of a dispatch is detached if those of the actions are. -/
lemma script_detached (hb : b.Every Detached m) : (d.script options b m).Detached := by
  have hlocate : (d.locate b m).Detached := by
    refine (Detached.ofExcept _).bind fun id => ?_
    refine (Detached.ask _).bind fun _ => (Detached.ask _).bind fun _ => ?_
    exact Detached.checkLive.bind fun _ => (Detached.ask _).bind fun found => trivial
  rw [script_eq]
  refine hlocate.bind fun located => (react_detached hb located.1 located.2).bind fun outcome => ?_
  unfold Definition.conclude
  split
  · exact (Detached.ask _).bind fun _ => (Detached.ask _).bind fun _ => trivial
  · trivial

variable (options) in
/-- The dispatch of a telling blueprint comes to the same in akin deliveries. -/
lemma script_akin (hown : scope.services.OfSession) (hb : b.Every Script.Tells m)
    (hakin : s.Akin s') :
    Run.Akin ((d.script options b m).run scope s) ((d.script options b m).run scope s') := by
  have honly : (d.script options b m).Only fun r => ¬ r.Forwards :=
    script_only (hb.sends.weaken fun _ hr => hr.staysInside.not_forwards)
  exact (script_detached hb.detached).run_akin hown honly hakin

/-- What the script of a dispatch leaves as it was. -/
structure Keeping (s s' : Delivery σ M) : Prop where
  registry : s'.registry = s.registry
  now : s'.now = s.now
  cancelled : s'.cancelled = s.cancelled

variable (options) in
/-- A dispatch whose actions only send leaves the registry, the clock and the cancellation flag as
they were. -/
lemma script_keeping (hown : scope.services.OfSession) (hb : b.Only Request.OnlySends m)
    (s : Delivery σ M) : Keeping s (Run.final ((d.script options b m).run scope s)) := by
  refine Only.run_does (I := Keeping s) hown (fun _ hr => hr.not_forwards) ?_ ?_
    (script_leavesLive hb) s ⟨rfl, rfl, rfl⟩
  · exact fun _ _ hs => ⟨hs.registry, hs.now, hs.cancelled⟩
  · intro r answer s₁ s₂ hr hdoes hs
    cases hdoes with
    | cancel => exact hr.elim
    | _ => exact ⟨hs.registry, hs.now, hs.cancelled⟩

variable (scope) in
/-- What a telling dispatch comes to does not depend on the state of the application. -/
lemma upshot_app (hb : b.Every Detached m) (key : InstanceKey) (x y : σ)
    (state : Option Int32) :
    let u := d.upshot scope b m key x state
    let u' := d.upshot scope b m key y state
    u.result = u'.result ∧ u.messages = u'.messages ∧ u.state = u'.state := by
  have hemit : ∀ actions, (∀ action ∈ actions, b.Triggers m action) →
      ∃ result x' y' messages, b.emit scope m actions x = ⟨result, x', messages⟩ ∧
        b.emit scope m actions y = ⟨result, y', messages⟩ := by
    intro actions hactions
    unfold Blueprint.emit
    rw [← emission_runActions, ← emission_runActions]
    obtain ⟨hresult, hmessages⟩ := Detached.emission_eq (runActions_detached _ _ m 0
      fun action hmem => hb action (hactions action hmem)) x y
    exact ⟨_, _, _, _, rfl, by rw [hresult, hmessages]⟩
  cases state with
  | none =>
    cases hrule : b.starts.get? (Message.type m) with
    | none => simp only [upshot, hrule, and_self]
    | some rule =>
      obtain ⟨result, _, _, messages, hx, hy⟩ :=
        hemit rule.actions fun action hmem => .inl ⟨rule, hrule, hmem⟩
      simp only [upshot, hrule, hx, hy]
      cases result <;> exact ⟨rfl, rfl, rfl⟩
  | some ordinal =>
    cases hstate : d.states.ofOrdinal? ordinal with
    | none => simp only [upshot, hstate, and_self]
    | some current =>
      cases hrule : b.transfers.get? (current, Message.type m) with
      | none => simp only [upshot, hstate, hrule, and_self]
      | some rule =>
        obtain ⟨result, _, _, messages, hx, hy⟩ :=
          hemit rule.actions fun action hmem => .inr ⟨current, rule, hrule, hmem⟩
        simp only [upshot, hstate, hrule, hx, hy]
        cases result <;> exact ⟨rfl, rfl, rfl⟩

end Definition

namespace Announcing
open Pipeline

/-- The action goes by the message alone. -/
lemma announce_tells (text : String) (m : JobMessage) : (announce text m).Tells :=
  ⟨Script.Only.ask trivial, .ask _⟩

/-- The actions of the workflow go by the message alone. -/
lemma tells : definition.Tells := by
  refine List.forall_mem_cons.2 ⟨?start, List.forall_mem_cons.2 ⟨?on, ?selectors⟩⟩
  case start => exact List.forall_mem_cons.2 ⟨announce_tells _, nofun⟩
  case on =>
    exact List.forall_mem_cons.2 ⟨announce_tells _,
      List.forall_mem_cons.2 ⟨announce_tells _, nofun⟩⟩
  case selectors => exact List.forall_mem_cons.2 ⟨nofun, List.forall_mem_cons.2 ⟨nofun, nofun⟩⟩

end Announcing

end Saga
