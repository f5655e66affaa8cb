import Saga.Proofs.Dispatch.Live

/-!
# What a dispatch comes to in the end

A registry is faithful to a definition when it keeps nothing for it but its blueprint, as it does
for definitions with identities of their own (`Registry.Faithful.of_origin`). In a fresh session the
dispatch of a definition that only sends then leaves the store alone, if it is cancelled or the
message has no correlation id, and comes to its upshot otherwise (`Definition.dispatch_settled`).
-/

namespace Saga

variable {σ M : Type}

/-- Whether a registry keeps nothing for a definition but what it compiles to. -/
def Registry.Faithful (registry : Registry σ M) (d : Definition σ M) : Prop :=
  ∀ trigger cached, registry.lookup ⟨d.id, trigger⟩ = some cached →
    ∃ b, d.compile = .ok b ∧ cached.as? d.states = some b

namespace Registry.Faithful

variable {d d' : Definition σ M} {trigger : MessageType} {registry registry' : Registry σ M}

/-- What is fetched from a faithful registry is what the definition compiles to. -/
lemma compile_of_origin (h : registry.Faithful d) {b : Blueprint σ M d.states}
    (horigin : Registry.Origin d trigger registry b registry') : d.compile = .ok b := by
  cases horigin with
  | kept hlookup has =>
    obtain ⟨b', hcompile, has'⟩ := h _ _ hlookup
    cases has.symm.trans has'
    exact hcompile
  | compiled _ hcompile => exact hcompile

/-- A registry stays faithful when a blueprint is fetched, also that of another definition. -/
lemma of_origin (h : registry.Faithful d) (hident : d'.id = d.id → d' = d)
    {b : Blueprint σ M d'.states} (horigin : Registry.Origin d' trigger registry b registry') :
    registry'.Faithful d := by
  cases horigin with
  | kept _ _ => exact h
  | compiled hlookup hcompile =>
    intro other cached hcached
    simp only [insertIfAbsent, hlookup] at hcached
    rw [lookup, Keyed.get?_insert] at hcached
    split at hcached
    · next heq =>
      cases hident (congrArg BlueprintKey.definition heq)
      cases hcached
      exact ⟨b, hcompile, as?_self _ b⟩
    · exact h other cached hcached

/-- A faithful registry gives the blueprint of a definition that compiles. -/
lemma blueprint {s : Delivery σ M} (h : s.registry.Faithful d) {b : Blueprint σ M d.states}
    (hcompile : d.compile = .ok b) (trigger : MessageType) :
    ∃ registry log, Registry.blueprint d trigger s = .ok b { s with registry, log } ∧
      Registry.Origin d trigger s.registry b registry := by
  rcases blueprint_cases d trigger s with ⟨e, hfailed⟩ | ⟨b', registry, log, hfetch, horigin⟩
  · have hkept : ∀ cached, s.registry.lookup ⟨d.id, trigger⟩ = some cached →
        cached.as? d.states = some b := by
      intro cached hlookup
      obtain ⟨b', hcompile', has⟩ := h trigger cached hlookup
      cases hcompile.symm.trans hcompile'
      exact has
    obtain ⟨_, _, hfetch⟩ := blueprint_of_compile hcompile hkept
    cases hfailed.symm.trans hfetch
  · cases hcompile.symm.trans (h.compile_of_origin horigin)
    exact ⟨registry, log, hfetch, horigin⟩

end Registry.Faithful

namespace Definition

variable [Message M] {d : Definition σ M} {scope : Scope σ M} {b : Blueprint σ M d.states} {m : M}
  {s : Delivery σ M}

/-- What a dispatch comes to: its upshot, if it is live and the message has a correlation id, and
nothing otherwise. -/
structure Settled (d : Definition σ M) (scope : Scope σ M) (b : Blueprint σ M d.states) (m : M)
    (s : Delivery σ M) (run : EStateM.Result EngineError (Delivery σ M) (Outcome d.states)) :
    Prop where
  registry : Registry.Origin d (Message.type m) s.registry b (Run.final run).registry
  cancelled : (Run.final run).cancelled = s.cancelled
  idle : s.cancelled = true ∨ (∃ e, b.correlate m = .error e) →
    (Run.final run).store = s.store ∧ (Run.final run).app = s.app
  moved : s.cancelled = false → ∀ id, b.correlate m = .ok id →
    let key : InstanceKey := ⟨id, d.id.name⟩
    (d.upshot scope b m key s.app (s.store.state? key)).Holds key s.store (Run.result run)
      (Run.final run).app (Run.final run).store

/-- A live dispatch in a fresh session lives up to what its definition compiles to, if the registry
is faithful and the actions only send. -/
lemma dispatch_lived (options : DispatchOptions) (hservices : scope.services.Complete)
    (hd : d.RulesOnly Request.OnlySends) (hcompile : d.compile = .ok b) (m : M)
    (hfaithful : s.registry.Faithful d) (honly : s.registry.Only Request.OnlySends)
    (hsession : s.session = {}) (hlive : s.cancelled = false) :
    ∃ registry, Registry.Origin d (Message.type m) s.registry b registry ∧
      registry.Only Request.OnlySends ∧
      d.Lived options scope b m registry s (d.dispatch options scope m s) := by
  obtain ⟨_, _, hfetch, -⟩ := hfaithful.blueprint hcompile (Message.type m)
  rcases dispatch_live options hservices hd honly hsession hlive (m := m) with
    ⟨e, hfailed, -⟩ | ⟨b', registry, log, horigin, -, -, honly', hlived⟩
  · cases hfailed.symm.trans hfetch
  -- What was fetched is what the definition compiles to, whether it was cached or not.
  · cases hcompile.symm.trans (hfaithful.compile_of_origin horigin)
    exact ⟨registry, horigin, honly', hlived⟩

/-- A dispatch in a fresh session settles, if the registry is faithful and the actions only send. -/
lemma dispatch_settled (options : DispatchOptions) (hservices : scope.services.Complete)
    (hd : d.RulesOnly Request.OnlySends) (hcompile : d.compile = .ok b) (m : M)
    (hfaithful : s.registry.Faithful d) (honly : s.registry.Only Request.OnlySends)
    (hsession : s.session = {}) : d.Settled scope b m s (d.dispatch options scope m s) := by
  cases hlive : s.cancelled with
  | true =>
    obtain ⟨registry, log, hfetch, horigin⟩ := hfaithful.blueprint hcompile (Message.type m)
    rw [dispatch_of_cancelled hlive, hfetch]
    exact ⟨horigin, rfl, fun _ => ⟨rfl, rfl⟩, fun h => absurd (hlive.symm.trans h) nofun⟩
  | false =>
    obtain ⟨registry, horigin, -, hlived⟩ :=
      dispatch_lived options hservices hd hcompile m hfaithful honly hsession hlive
    refine ⟨hlived.registry ▸ horigin, hlived.live.trans hlive.symm, ?idle, ?moved⟩
    case idle =>
      rintro (hcancelled | ⟨e, he⟩)
      · cases hlive.symm.trans hcancelled
      · rcases hlived.ends with ⟨-, -, -, hstore, happ⟩ | ⟨id, hid, -⟩
        · exact ⟨hstore, happ⟩
        · cases hid.symm.trans he
    case moved =>
      intro _ id hid
      rcases hlived.ends with ⟨e, he, -⟩ | ⟨id', hid', hends⟩
      · cases hid.symm.trans he
      · cases hid.symm.trans hid'
        exact hends.upshot

end Definition

end Saga
