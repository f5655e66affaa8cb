import Saga.Proofs.Blueprint.Compile

/-!
# Fetching the blueprint

A dispatch begins by fetching its blueprint. Either the registry keeps one, or the definition is
compiled and the result kept. A fetch that fails changes nothing, and one that succeeds changes
nothing but the registry and the log (`blueprint_cases`); what it gives is what was kept, or what
the definition compiles to (`Registry.Origin`). So a registry that keeps no action with a forbidden
request gives none and keeps none (`Registry.Only.of_origin`).
-/

namespace Saga

variable {σ M : Type}

/-- Where the blueprint of a definition can come from. -/
inductive Registry.Origin (d : Definition σ M) (trigger : MessageType) (registry : Registry σ M)
    (b : Blueprint σ M d.states) : Registry σ M → Prop where
  | kept {cached} :
    registry.lookup ⟨d.id, trigger⟩ = some cached → cached.as? d.states = some b →
    Origin d trigger registry b registry
  | compiled :
    registry.lookup ⟨d.id, trigger⟩ = none → d.compile = .ok b →
    Origin d trigger registry b (registry.insertIfAbsent ⟨d.id, trigger⟩ b).2

namespace Registry

/-- Whether a registry keeps all that another one keeps. -/
def Extends (registry' registry : Registry σ M) : Prop :=
  ∀ key cached, registry.lookup key = some cached → registry'.lookup key = some cached

/-- A registry extends itself. -/
lemma Extends.refl (registry : Registry σ M) : registry.Extends registry := fun _ _ => id

/-- An extension of an extension is one of the first registry. -/
lemma Extends.trans {first second third : Registry σ M} (h : third.Extends second)
    (h' : second.Extends first) : third.Extends first :=
  fun key cached hlookup => h key cached (h' key cached hlookup)

/-- What is kept is not replaced. -/
lemma extends_insertIfAbsent (registry : Registry σ M) (key : BlueprintKey) {S : StateSet}
    (b : Blueprint σ M S) : (registry.insertIfAbsent key b).2.Extends registry := by
  intro other cached hcached
  unfold insertIfAbsent
  cases hlookup : registry.lookup key with
  | some kept => exact hcached
  | none =>
    show (registry.entries.insert key _).get? other = some cached
    rw [Keyed.get?_insert]
    split
    · next heq =>
      subst heq
      cases hlookup.symm.trans hcached
    · exact hcached

/-- Whatever a blueprint comes from, the registry keeps what it kept. -/
lemma Origin.extends {d : Definition σ M} {trigger : MessageType}
    {registry registry' : Registry σ M}
    {b : Blueprint σ M d.states} (h : Origin d trigger registry b registry') :
    registry'.Extends registry := by
  cases h with
  | kept _ _ => exact .refl registry
  | compiled _ _ => exact extends_insertIfAbsent registry _ b

/-- A blueprint taken for one over its own states is that blueprint. -/
lemma as?_self {S : StateSet} (serial : Nat) (b : Blueprint σ M S) :
    (⟨serial, S, b⟩ : CachedBlueprint σ M).as? S = some b := by
  simp [CachedBlueprint.as?]

/-- Fetching a blueprint fails and changes nothing, or it gives one and changes nothing but the
registry and the log. -/
lemma blueprint_cases (d : Definition σ M) (trigger : MessageType) (s : Delivery σ M) :
    (∃ e, Registry.blueprint d trigger s = .error e s) ∨
      ∃ b registry log, Registry.blueprint d trigger s = .ok b { s with registry, log } ∧
        Origin d trigger s.registry b registry := by
  unfold Registry.blueprint
  rw [getOrBuild_apply]
  cases hkept : s.registry.lookup ⟨d.id, trigger⟩ with
  | some cached =>
    cases has : cached.as? d.states with
    | none =>
      left
      refine ⟨.blueprintTypeMismatch d.id.name, ?_⟩
      simp only [expect, has]
      rfl
    | some b =>
      right
      refine ⟨b, s.registry, s.log, ?_, .kept hkept has⟩
      simp only [expect, has]
      rfl
  | none =>
    simp only [Definition.compileLogged_apply]
    cases hcompile : d.compile with
    | error e => exact .inl ⟨.build e, rfl⟩
    | ok b =>
      right
      refine ⟨b, _, ?log, ?run, .compiled hkept hcompile⟩
      case run =>
        simp only [insertIfAbsent, Delivery.logged, hkept, expect, as?_self]
        rfl

/-- A fetch that gave a blueprint has changed nothing but the registry and the log. -/
lemma blueprint_eq_ok {d : Definition σ M} {trigger : MessageType} {s s' : Delivery σ M}
    {b : Blueprint σ M d.states} (h : Registry.blueprint d trigger s = .ok b s') :
    ∃ registry log, s' = { s with registry, log } ∧ Origin d trigger s.registry b registry := by
  rcases blueprint_cases d trigger s with ⟨e, hfailed⟩ | ⟨b', registry, log, hfetch, horigin⟩
  · cases hfailed.symm.trans h
  · cases hfetch.symm.trans h
    exact ⟨registry, log, rfl, horigin⟩

/-- A definition that compiles, and under whose key nothing else is kept, is given what it compiles
to. -/
lemma blueprint_of_compile {d : Definition σ M} {trigger : MessageType} {s : Delivery σ M}
    {b : Blueprint σ M d.states} (hcompile : d.compile = .ok b)
    (hkept : ∀ cached, s.registry.lookup ⟨d.id, trigger⟩ = some cached →
      cached.as? d.states = some b) :
    ∃ registry log, Registry.blueprint d trigger s = .ok b { s with registry, log } := by
  unfold Registry.blueprint
  rw [getOrBuild_apply]
  cases hlookup : s.registry.lookup ⟨d.id, trigger⟩ with
  | some cached =>
    refine ⟨s.registry, s.log, ?_⟩
    simp only [expect, hkept cached hlookup]
    rfl
  | none =>
    simp only [Definition.compileLogged_apply, hcompile]
    simp only [insertIfAbsent, Delivery.logged, hlookup, expect, as?_self]
    exact ⟨_, _, rfl⟩

/-- What a fetch gives depends on the registry alone. -/
lemma blueprint_congr (d : Definition σ M) (trigger : MessageType) {s s' : Delivery σ M}
    (h : s.registry = s'.registry) :
    Run.result (Registry.blueprint d trigger s) = Run.result (Registry.blueprint d trigger s') := by
  unfold Registry.blueprint
  rw [getOrBuild_apply, getOrBuild_apply, h]
  cases hkept : s'.registry.lookup ⟨d.id, trigger⟩ with
  | some cached =>
    simp only
    cases expect ⟨d.id, trigger⟩ d.states cached <;> rfl
  | none =>
    simp only [Definition.compileLogged_apply]
    cases d.compile with
    | error e => rfl
    | ok b =>
      simp only [insertIfAbsent, Delivery.logged, h, hkept, expect, as?_self]
      rfl

/-- What a registry keeps after a fetch is determined by what it kept before. -/
lemma Origin.unique {d : Definition σ M} {trigger : MessageType}
    {registry after after' : Registry σ M} {b : Blueprint σ M d.states}
    (h : Origin d trigger registry b after) (h' : Origin d trigger registry b after') :
    after = after' := by
  cases h with
  | kept hlookup _ =>
    cases h' with
    | kept _ _ => rfl
    | compiled hnone _ => cases hlookup.symm.trans hnone
  | compiled hnone _ =>
    cases h' with
    | kept hlookup _ => cases hlookup.symm.trans hnone
    | compiled _ _ => rfl

/-- Fetching a blueprint fails for a defect of the definition, or because what is kept for it is
over other states. -/
lemma blueprint_error {d : Definition σ M} {trigger : MessageType} {s s' : Delivery σ M}
    {e : EngineError} (h : Registry.blueprint d trigger s = .error e s') :
    (∃ cause, d.compile = .error cause ∧ e = .build cause) ∨
      (∃ cached, s.registry.lookup ⟨d.id, trigger⟩ = some cached ∧ cached.as? d.states = none) ∧
        e = .blueprintTypeMismatch d.id.name := by
  unfold Registry.blueprint at h
  rw [getOrBuild_apply] at h
  cases hlookup : s.registry.lookup ⟨d.id, trigger⟩ with
  | some cached =>
    simp only [hlookup, expect] at h
    cases has : cached.as? d.states with
    | none =>
      rw [has] at h
      cases h
      exact .inr ⟨⟨cached, rfl, has⟩, rfl⟩
    | some b =>
      rw [has] at h
      cases h
  | none =>
    simp only [hlookup, Definition.compileLogged_apply] at h
    cases hcompile : d.compile with
    | error cause =>
      rw [hcompile] at h
      cases h
      exact .inl ⟨cause, rfl, rfl⟩
    | ok b =>
      simp only [hcompile, insertIfAbsent, Delivery.logged, hlookup, expect, as?_self] at h
      cases h

end Registry

/-- A kept blueprint that is taken for one over the states of a definition has the actions that were
kept. -/
lemma CachedBlueprint.every_of_as? [Message M] {q : Script σ M Failure Unit → Prop}
    {cached : CachedBlueprint σ M} {S : StateSet} {b : Blueprint σ M S} {m : M}
    (h : cached.blueprint.Every q m) (has : cached.as? S = some b) : b.Every q m := by
  obtain ⟨serial, T, kept⟩ := cached
  by_cases hT : T = S
  · subst hT
    rw [Registry.as?_self] at has
    cases has
    exact h
  · simp [CachedBlueprint.as?, hT] at has

/-- The blueprint that a dispatch is given asks for what its definition asks for. -/
lemma Definition.Only.of_origin [Message M] {p : Request M → Prop} {d : Definition σ M}
    {registry registry' : Registry σ M} {m : M} {b : Blueprint σ M d.states}
    (h : d.Only p registry m)
    (horigin : Registry.Origin d (Message.type m) registry b registry') : b.Only p m := by
  cases horigin with
  | kept hlookup has => exact CachedBlueprint.every_of_as? (h.kept _ hlookup) has
  | compiled _ hcompile => exact h.compiled b hcompile

/-- Whether the actions of a definition only make requests with the property `p`. -/
def Definition.RulesOnly (p : Request M → Prop) (d : Definition σ M) : Prop :=
  ∀ rule ∈ d.rules, ∀ run ∈ rule.actions, ∀ m, (run m).Only p

/-- Whether the scripts of the actions of a definition have the property `q`. -/
def Definition.RulesEvery (q : Script σ M Failure Unit → Prop) (d : Definition σ M) : Prop :=
  ∀ rule ∈ d.rules, ∀ run ∈ rule.actions, ∀ m, q (run m)

/-- Whether the actions of all kept blueprints only make requests with the property `p`. -/
def Registry.Only [Message M] (p : Request M → Prop) (r : Registry σ M) : Prop :=
  ∀ key cached, r.lookup key = some cached → ∀ m, cached.blueprint.Only p m

/-- Whether the scripts of the actions of all kept blueprints have the property `q`. -/
def Registry.Every [Message M] (q : Script σ M Failure Unit → Prop) (r : Registry σ M) : Prop :=
  ∀ key cached, r.lookup key = some cached → ∀ m, cached.blueprint.Every q m

/-- A fetch gives and keeps no blueprint without the property if none was kept and the definition
has no action without it. -/
lemma Registry.Every.of_origin [Message M] {q : Script σ M Failure Unit → Prop}
    {d : Definition σ M} {trigger : MessageType} {registry registry' : Registry σ M}
    {b : Blueprint σ M d.states} (h : registry.Every q) (hd : d.RulesEvery q)
    (horigin : Registry.Origin d trigger registry b registry') :
    (∀ m, b.Every q m) ∧ registry'.Every q := by
  cases horigin with
  | kept hlookup has =>
    refine ⟨fun m => ?_, h⟩
    exact CachedBlueprint.every_of_as? (h _ _ hlookup m) has
  | compiled hlookup hcompile =>
    have hb : ∀ m, b.Every q m := fun m =>
      .of_compile (fun rule hrule run hrun => hd rule hrule run hrun m) hcompile
    refine ⟨hb, ?_⟩
    intro key cached hcached
    simp only [Registry.insertIfAbsent, hlookup] at hcached
    rw [Registry.lookup, Keyed.get?_insert] at hcached
    split at hcached
    · cases hcached
      exact hb
    · exact h key cached hcached

/-- A fetch gives and keeps no blueprint with a forbidden request if none was kept and the
definition has none. -/
lemma Registry.Only.of_origin [Message M] {p : Request M → Prop} {d : Definition σ M}
    {trigger : MessageType} {registry registry' : Registry σ M} {b : Blueprint σ M d.states}
    (h : registry.Only p) (hd : d.RulesOnly p)
    (horigin : Registry.Origin d trigger registry b registry') :
    (∀ m, b.Only p m) ∧ registry'.Only p :=
  Registry.Every.of_origin h hd horigin

end Saga
