import Saga.Proofs.Dispatch.Settling
import Saga.Proofs.Host.Events
import Saga.Proofs.Sequences

/-!
# Subscriptions that succeed

A host welcomes definitions when their names are free or their own and its registry is faithful to
them (`Host.Welcomes`). Then those that compile can subscribe in any order and any number of times,
and are the handlers of the message types that they asked for (`Host.Welcomes.subscribeAll`).
-/

namespace Saga.Host

variable {σ M : Type}

/-- Subscribes definitions one after the other, up to the first that is refused. -/
def subscribeAll (subscriptions : List (Definition σ M × MessageType)) :
    EStateM EngineError (Host σ M) Unit :=
  subscriptions.forM fun s => subscribe s.1 s.2

/-- The handlers of a message type after subscriptions. -/
def subscribers (subscriptions : List (Definition σ M × MessageType)) (trigger : MessageType) :
    List (Handler σ M) :=
  (subscriptions.filter fun s => s.2 = trigger).map fun s => .workflow s.1

/-- Whether no definition of a kind is refused by a host, if it compiles. -/
structure Welcomes (h : Host σ M) (known : Definition σ M → Prop) : Prop where
  free : ∀ d, known d → ∀ owner, h.owners.get? d.id.name = some owner → owner = d.id
  faithful : ∀ d, known d → h.engine.registry.Faithful d

/-- A definition that compiles is accepted when its name is free and the registry is faithful. -/
lemma subscribe_of_compile {h : Host σ M} {d : Definition σ M} {b : Blueprint σ M d.states}
    (hfree : h.nameTaken d.id = false) (hfaithful : h.engine.registry.Faithful d)
    (hcompile : d.compile = .ok b) (trigger : MessageType) :
    ∃ h', subscribe d trigger h = .ok () h' ∧ Accepted d trigger h h' := by
  rcases subscribe_cases h d trigger with ⟨e, hrefused⟩ | haccepted
  · obtain ⟨registry, log, hfetch, -⟩ :=
      Registry.Faithful.blueprint (s := { h.engine with }) hfaithful hcompile trigger
    have hget : ∀ f : Host σ M → EStateM EngineError (Host σ M) Unit, (get >>= f) h = f h h :=
      fun _ => rfl
    unfold subscribe at hrefused
    rw [hget, hfree] at hrefused
    simp only [Bool.false_eq_true, if_false, bind, EStateM.bind, onEngine, hfetch] at hrefused
    cases hrefused
  · exact haccepted

namespace Welcomes

variable {h : Host σ M} {known : Definition σ M → Prop}
  (hnames : ∀ d d', known d → known d' → d.id.name = d'.id.name → d = d')
  (hcompiles : ∀ d, known d → ∃ b, d.compile = .ok b)

include hnames hcompiles

/-- A definition of the kind is accepted, and the others stay welcome. -/
lemma subscribe (hh : h.Welcomes known) {d : Definition σ M} (hd : known d)
    (trigger : MessageType) :
    ∃ h', Host.subscribe d trigger h = .ok () h' ∧ Accepted d trigger h h' ∧
      h'.Welcomes known := by
  have hfree : h.nameTaken d.id = false := by
    unfold nameTaken
    cases howner : h.owners.get? d.id.name with
    | none => rfl
    | some owner => simp [hh.free d hd owner howner]
  obtain ⟨b, hcompile⟩ := hcompiles d hd
  obtain ⟨h', hok, haccepted⟩ := subscribe_of_compile hfree (hh.faithful d hd) hcompile trigger
  refine ⟨h', hok, haccepted, ?free, ?faithful⟩
  case free =>
    intro d' hd' owner howner
    rw [haccepted.owners, Keyed.get?_insert] at howner
    split at howner
    · next hname =>
      rw [← hnames d d' hd hd' hname]
      exact (Option.some.inj howner).symm
    · exact hh.free d' hd' owner howner
  case faithful =>
    intro d' hd'
    obtain ⟨b, registry, log, horigin, hengine⟩ := haccepted.engine
    rw [hengine]
    refine (hh.faithful d' hd').of_origin (fun hid => ?_) horigin
    exact hnames d d' hd hd' (congrArg DefinitionId.name hid)

/-- Definitions of the kind subscribe one after the other. Nothing else changes but the registry,
which keeps no requests that they do not make, and the log. -/
lemma subscribeAll [Message M] (hh : h.Welcomes known) {p : Request M → Prop}
    (hp : ∀ d, known d → d.RulesOnly p) (honly : h.engine.registry.Only p)
    {subscriptions : List (Definition σ M × MessageType)}
    (hknown : ∀ s ∈ subscriptions, known s.1) :
    ∃ h', Host.subscribeAll subscriptions h = .ok () h' ∧ h'.Welcomes known ∧
      h'.engine.registry.Only p ∧ h'.router = h.router ∧
      (∃ registry log, h'.engine = { h.engine with registry, log }) ∧
      ∀ trigger, h'.handlersOf trigger =
        h.handlersOf trigger ++ subscribers subscriptions trigger := by
  induction subscriptions generalizing h with
  | nil => exact ⟨h, rfl, hh, honly, rfl, ⟨_, _, rfl⟩, fun _ => (List.append_nil _).symm⟩
  | cons s rest ih =>
    obtain ⟨hs, hrest⟩ := List.forall_mem_cons.1 hknown
    obtain ⟨next, hok, haccepted, hnext⟩ := hh.subscribe hnames hcompiles hs s.2
    obtain ⟨b, registry, log, horigin, hengine⟩ := haccepted.engine
    have honly' : next.engine.registry.Only p := by
      rw [hengine]
      exact (honly.of_origin (hp s.1 hs) horigin).2
    obtain ⟨h', hall, hwelcomes, hlast, hrouter, ⟨registry', log', hengine'⟩, hhandlers⟩ :=
      ih hnext honly' hrest
    refine ⟨h', ?run, hwelcomes, hlast, hrouter.trans haccepted.router, ⟨registry', log', ?_⟩, ?_⟩
    case run => exact (EStateM.bind_of_ok hok).trans hall
    · rw [hengine', hengine]
    · intro trigger
      rw [hhandlers, haccepted.handlers]
      by_cases htrigger : s.2 = trigger
      · simp [subscribers, htrigger]
      · simp [subscribers, htrigger]

end Welcomes

end Saga.Host
