import Saga.Proofs.Dispatch.Partition
import Saga.Proofs.Host.Answers
import Saga.Proofs.Host.Subscribing
import Saga.Proofs.Lists
import Saga.Proofs.Sequences

/-!
# The order of subscriptions

A delivery treats each partition as if only the definition that owns it had subscribed: what its
handlers do goes by the rows of the partition, and the other handlers leave these alone
(`Host.Serving.partition`). So hosts with the same subscriptions in another order take the same
messages to equal records, and the endings of each definition come in the same order
(`Host.subscription_order_immaterial`).
-/

namespace Saga

variable {σ M : Type}

namespace Registry

/-- Whether a registry serves definitions: it keeps only blueprints that only send, and for each of
them nothing but what it compiles to. -/
structure Serves [Message M] (known : Definition σ M → Prop) (registry : Registry σ M) : Prop where
  sends : registry.Only Request.OnlySends
  faithful : ∀ d, known d → registry.Faithful d

end Registry

variable [Message M]

namespace Host

variable {known : Definition σ M → Prop} {h h' : Host σ M} {m : M} {router : Router σ M}

/-- Whether a delivery is live and its registry serves definitions. -/
structure Serving (known : Definition σ M → Prop) (s : Delivery σ M) : Prop where
  live : s.cancelled = false
  registry : s.registry.Serves known

/-- A delivery that serves definitions is ready for the messages of each. -/
lemma Serving.served {s : Delivery σ M} (hs : Serving known s) {d : Definition σ M} (hd : known d) :
    d.Served s :=
  ⟨hs.live, hs.registry.sends, hs.registry.faithful d hd⟩

/-- Whether definitions can share a host: their names tell them apart, their actions go by the
message alone, and they compile. -/
structure Coexist (known : Definition σ M → Prop) : Prop where
  names : ∀ d d', known d → known d' → d.id.name = d'.id.name → d = d'
  tells : ∀ d, known d → d.Tells
  compiles : ∀ d, known d → ∃ b, d.compile = .ok b

section Turns

variable (m) (router) (hknown : Coexist known)

include hknown

/-- A handler leaves a delivery that goes on serving, the rows of other partitions, and what was in
the outbox. -/
lemma Serving.turn {s : Delivery σ M} (hs : Serving known s) (hsession : s.session = {})
    {d : Definition σ M} (hd : known d) :
    let after := Run.final (runHandler router m (.workflow d) s)
    Serving known after ∧
      (∀ key : InstanceKey, key.definition ≠ d.id.name →
        after.store.record? key = s.store.record? key) ∧
      ∃ messages, after.store.outbox = s.store.outbox ++ messages := by
  intro after
  obtain ⟨b, hcompile⟩ := hknown.compiles d hd
  have hservices := router.services_complete
  obtain ⟨registry, horigin, hsends, hlived⟩ := Definition.dispatch_lived router.options hservices
    (hknown.tells d hd).sends hcompile m (hs.registry.faithful d hd) hs.registry.sends hsession
      hs.live
  have hafter : after = Run.final (d.dispatch router.options router.scope m s) :=
    (handle_run router m d s).2
  have helsewhere :=
    Definition.dispatch_elsewhere hservices (hknown.tells d hd) hcompile (hs.served hd)
    hsession router.options m
  rw [hafter]
  refine ⟨⟨hlived.live, ?_⟩, helsewhere⟩
  rw [hlived.registry]
  refine ⟨hsends, fun d' hd' => ?_⟩
  refine (hs.registry.faithful d' hd').of_origin (fun hid => ?_) horigin
  exact hknown.names d d' hd hd' (congrArg DefinitionId.name hid)

/-- In deliveries that agree on its partition a definition ends alike, and leaves such deliveries.
-/
lemma Serving.turn_agrees {s s' : Delivery σ M} (hs : Serving known s) (hs' : Serving known s')
    (hsession : s.session = {}) (hsession' : s'.session = {}) {d : Definition σ M} (hd : known d)
    (hagree : Store.AgreeOn d.id.name s.store s'.store) :
    ending router m (.workflow d, s) = ending router m (.workflow d, s') ∧
      Store.AgreeOn d.id.name (Run.final (runHandler router m (.workflow d) s)).store
        (Run.final (runHandler router m (.workflow d) s')).store := by
  obtain ⟨b, hcompile⟩ := hknown.compiles d hd
  have hservices := router.services_complete
  obtain ⟨hresult, hafter, messages, houtbox, houtbox'⟩ := Definition.dispatch_agrees hservices
    (hknown.tells d hd) hcompile (hs.served hd) (hs'.served hd) hsession hsession' hagree
      router.options m
  obtain ⟨hanswer, hfinal⟩ := handle_run router m d s
  obtain ⟨hanswer', hfinal'⟩ := handle_run router m d s'
  unfold ending
  simp only [hanswer, hanswer', hfinal, hfinal', hresult, houtbox, houtbox', List.drop_left]
  exact ⟨trivial, hafter⟩

/-- Handlers of known definitions, one after the other, leave a delivery that goes on serving, and
add what they post to the outbox. -/
lemma Serving.turns {handlers : List (Handler σ M)}
    (hhandlers : ∀ handler ∈ handlers, ∃ d, handler = .workflow d ∧ known d)
    (progress : Report × Delivery σ M) (hs : Serving known progress.2) :
    let last := handlers.foldl (deliverTo router m) progress
    Serving known last.2 ∧ last.2.store.outbox = progress.2.store.outbox ++
      ((Host.turns router m handlers progress).map (ending router m)).flatMap Ending.posted := by
  refine outbox_turns (fun _ _ h => ⟨h.live, h.registry⟩) ?_ hs
  intro handler hmem s hsession hs
  obtain ⟨d, rfl, hd⟩ := hhandlers handler hmem
  obtain ⟨hkept, -, houtbox⟩ := hs.turn m router hknown hsession hd
  exact ⟨hkept, houtbox⟩

/-- What becomes of a partition in a delivery is what becomes of it in one to its own definition
alone, from any delivery that agrees on it. -/
lemma Serving.partition {handlers : List (Handler σ M)}
    (hhandlers : ∀ handler ∈ handlers, ∃ d, handler = .workflow d ∧ known d) (name : String)
    (progress progress' : Report × Delivery σ M) (hs : Serving known progress.2)
    (hs' : Serving known progress'.2)
    (hagree : Store.AgreeOn name progress.2.store progress'.2.store) :
    let own := handlers.filter fun handler => handler.name = name
    ((Host.turns router m handlers progress).map (ending router m)).filter
          (fun e => e.handler = name) =
        (Host.turns router m own progress').map (ending router m) ∧
      Store.AgreeOn name (handlers.foldl (deliverTo router m) progress).2.store
        (own.foldl (deliverTo router m) progress').2.store := by
  have hown : ((Host.turns router m handlers progress).filter
      fun t => decide (t.1.name = name)).map Prod.fst =
        handlers.filter fun handler => handler.name = name := by
    rw [← turns_map_fst router m handlers progress, List.filter_map, turns_map_fst]
    rfl
  obtain ⟨hendings, -, -, hlast⟩ := turns_thinned
    (R := fun s s' => Serving known s ∧ Serving known s' ∧ Store.AgreeOn name s.store s'.store)
    (p := fun t => t.1.name = name) progress progress'
    (fun _ _ _ _ h => ⟨⟨h.1.live, h.1.registry⟩, ⟨h.2.1.live, h.2.1.registry⟩, h.2.2⟩)
    (fun handler hmem s s' hsession hsession' h hp => by
      obtain ⟨d, rfl, hd⟩ := hhandlers handler hmem
      obtain rfl : d.id.name = name := of_decide_eq_true hp
      obtain ⟨hending, hafter⟩ := h.1.turn_agrees m router hknown h.2.1 hsession hsession' hd h.2.2
      exact ⟨hending, (h.1.turn m router hknown hsession hd).1,
        (h.2.1.turn m router hknown hsession' hd).1, hafter⟩)
    (fun handler hmem s s' hsession _ h hp => by
      obtain ⟨d, rfl, hd⟩ := hhandlers handler hmem
      have hne : d.id.name ≠ name := of_decide_eq_false hp
      obtain ⟨hkept, hrows, -⟩ := h.1.turn m router hknown hsession hd
      refine ⟨hkept, h.2.1, fun key hkey => ?_⟩
      rw [hrows key fun heq => hne (heq.symm.trans hkey)]
      exact h.2.2 key hkey)
    ⟨hs, hs', hagree⟩
  rw [hown] at hendings hlast
  rw [List.filter_map]
  exact ⟨hendings, hlast⟩

end Turns

/-- Whether hosts have the same handlers up to their order, serve their definitions, and keep the
same records. -/
structure Reordered (known : Definition σ M → Prop) (h h' : Host σ M) : Prop where
  router : h'.router = h.router
  handlers : ∀ trigger, (h.handlersOf trigger).Perm (h'.handlersOf trigger)
  workflows : ∀ trigger, ∀ handler ∈ h.handlersOf trigger, ∃ d, handler = .workflow d ∧ known d
  registry : h.engine.registry.Serves known
  registry' : h'.engine.registry.Serves known
  records : ∀ key, h.engine.store.record? key = h'.engine.store.record? key

namespace Reordered

variable (hknown : Coexist known)

/-- Hosts stay reordered when time goes on, also by different clocks. -/
lemma step_tick (hh : Reordered known h h') (now now' : Timestamp) :
    Reordered known (h.step (.tick now)) (h'.step (.tick now')) :=
  ⟨hh.router, hh.handlers, hh.workflows, hh.registry, hh.registry', hh.records⟩

include hknown

/-- A message that is delivered live to reordered hosts leaves such hosts. In either of them the
outbox is given what the handlers post, and of each name the endings are the same in both. -/
lemma deliver (hh : Reordered known h h') (m : M) :
    Reordered known (h.deliver m false).2 (h'.deliver m false).2 ∧
      (h.deliver m false).2.engine.store.outbox =
        h.engine.store.outbox ++ (h.endings m).flatMap Ending.posted ∧
      (h'.deliver m false).2.engine.store.outbox =
        h'.engine.store.outbox ++ (h'.endings m).flatMap Ending.posted ∧
      ∀ name, (h.endings m).filter (fun e => e.handler = name) =
        (h'.endings m).filter (fun e => e.handler = name) := by
  have hknown₁ := hh.workflows (Message.type m)
  have hknown₂ : ∀ handler ∈ h'.handlersOf (Message.type m), ∃ d, handler = .workflow d ∧ known d :=
    fun handler hmem => hknown₁ handler ((hh.handlers _).mem_iff.2 hmem)
  have hs₁ : Serving known (h.engine.delivery false) := ⟨rfl, hh.registry⟩
  have hs₂ : Serving known (h'.engine.delivery false) := ⟨rfl, hh.registry'⟩
  obtain ⟨hlast₁, houtbox₁⟩ := Serving.turns m h.router hknown hknown₁
    ({}, h.engine.delivery false) hs₁
  obtain ⟨hlast₂, houtbox₂⟩ := Serving.turns m h.router hknown hknown₂
    ({}, h'.engine.delivery false) hs₂
  have hown : ∀ name, (h.handlersOf (Message.type m)).filter (fun handler => handler.name = name) =
      (h'.handlersOf (Message.type m)).filter fun handler => handler.name = name := by
    intro name
    refine filter_eq_of_perm (hh.handlers _) fun handler hmem handler' hmem' hp hp' => ?_
    obtain ⟨d, rfl, hd⟩ := hknown₁ handler hmem
    obtain ⟨d', rfl, hd'⟩ := hknown₁ handler' hmem'
    have hname : d.id.name = d'.id.name := (of_decide_eq_true hp).trans (of_decide_eq_true hp').symm
    rw [hknown.names d d' hd hd' hname]
  -- Each partition is compared with a delivery to its own definition alone, from the second host.
  have hpartition₁ := fun name => Serving.partition m h.router hknown hknown₁ name
    ({}, h.engine.delivery false) ({}, h'.engine.delivery false) hs₁ hs₂
      (fun key _ => hh.records key)
  have hpartition₂ := fun name => Serving.partition m h.router hknown hknown₂ name
    ({}, h'.engine.delivery false) ({}, h'.engine.delivery false) hs₂ hs₂ (.refl _)
  obtain ⟨log₁, hdeliver₁⟩ := deliver_eq h m false
  obtain ⟨log₂, hdeliver₂⟩ := deliver_eq h' m false
  rw [hdeliver₁, hdeliver₂]
  unfold endings turnsOf deliverAll
  rw [hh.router]
  refine ⟨⟨rfl, hh.handlers, hh.workflows, hlast₁.registry, hlast₂.registry, fun key => ?_⟩,
    houtbox₁, houtbox₂, fun name => ?_⟩
  · have hagree := (hpartition₁ key.definition).2
    rw [hown] at hagree
    exact (hagree.trans (hpartition₂ key.definition).2.symm) key rfl
  · rw [(hpartition₁ name).1, hown, ← (hpartition₂ name).1]

/-- Reordered hosts stay so, message by message; in either of them the outbox is given what the
handlers post, and of each name this is the same in both. -/
lemma served (hh : Reordered known h h') {rounds rounds' : List (Timestamp × M)}
    (hsame : rounds.map Prod.snd = rounds'.map Prod.snd) :
    Reordered known (h.served rounds) (h'.served rounds') ∧
      (h.served rounds).engine.store.outbox =
        h.engine.store.outbox ++ (h.posted rounds).map Prod.snd ∧
      (h'.served rounds').engine.store.outbox =
        h'.engine.store.outbox ++ (h'.posted rounds').map Prod.snd ∧
      ∀ name, (h.posted rounds).filter (fun p => p.1 = name) =
        (h'.posted rounds').filter (fun p => p.1 = name) := by
  induction rounds generalizing h h' rounds' with
  | nil =>
    rw [List.map_nil, eq_comm, List.map_eq_nil_iff] at hsame
    subst hsame
    exact ⟨hh, (List.append_nil _).symm, (List.append_nil _).symm, fun _ => rfl⟩
  | cons round rest ih =>
    obtain ⟨⟨time, m⟩, rest', rfl, rfl, hrest⟩ := List.map_eq_cons_iff.1 hsame.symm
    obtain ⟨hnext, houtbox, houtbox', hendings⟩ :=
      (hh.step_tick round.1 time).deliver hknown round.2
    obtain ⟨hlast, hposted, hposted', hfilter⟩ := ih hnext hrest.symm
    refine ⟨hlast, ?_, ?_, fun name => ?_⟩
    · show (((h.step (.tick round.1)).deliver round.2 false).2.served rest).engine.store.outbox = _
      rw [hposted, houtbox, posted, List.map_append, Ending.flatMap_signed_snd, List.append_assoc]
      rfl
    · show (((h'.step (.tick time)).deliver round.2 false).2.served rest').engine.store.outbox = _
      rw [hposted', houtbox', posted, List.map_append, Ending.flatMap_signed_snd, List.append_assoc]
      rfl
    · rw [posted, posted, List.filter_append, List.filter_append, hfilter,
        Ending.filter_flatMap_signed, Ending.filter_flatMap_signed, hendings]

end Reordered

section Subscriptions

omit [Message M] in
/-- Definitions that have all been accepted compile, if the registry was faithful to them. -/
lemma subscribeAll_compile {subscriptions : List (Definition σ M × MessageType)} {h h' : Host σ M}
    (hident : ∀ d d', known d → known d' → d.id = d'.id → d = d')
    (hfaithful : ∀ d, known d → h.engine.registry.Faithful d)
    (hsubscriptions : ∀ s ∈ subscriptions, known s.1)
    (haccepted : subscribeAll subscriptions h = .ok () h') :
    ∀ s ∈ subscriptions, ∃ b, s.1.compile = .ok b := by
  induction subscriptions generalizing h with
  | nil => exact nofun
  | cons s rest ih =>
    obtain ⟨hs, hrest⟩ := List.forall_mem_cons.1 hsubscriptions
    obtain ⟨_, next, hfirst, hlater⟩ := EStateM.bind_eq_ok_iff.1 haccepted
    rcases subscribe_cases h s.1 s.2 with ⟨e, hrefused⟩ | ⟨next', hok, hnext⟩
    · cases hrefused.symm.trans hfirst
    · cases hok.symm.trans hfirst
      obtain ⟨b, registry, log, horigin, hengine⟩ := hnext.engine
      refine List.forall_mem_cons.2 ⟨⟨b, (hfaithful _ hs).compile_of_origin horigin⟩, ?_⟩
      refine ih (fun d hd => ?_) hrest hlater
      rw [hengine]
      exact (hfaithful d hd).of_origin (hident s.1 d hs hd) horigin

/-- The host over a store to which nobody has subscribed. -/
def fresh (router : Router σ M) (store : Store) (app : σ) : Host σ M :=
  { engine := { store, app }, router }

omit [Message M] in
/-- A new host welcomes every definition. -/
lemma fresh_welcomes (router : Router σ M) (store : Store) (app : σ) :
    (fresh router store app).Welcomes known :=
  ⟨nofun, nofun⟩

/-- The same subscriptions in another order give a reordered host. -/
lemma Reordered.of_perm (hknown : Coexist known) (router : Router σ M) (store : Store)
    (app app' : σ)
    {subscriptions subscriptions' : List (Definition σ M × MessageType)}
    (hperm : subscriptions.Perm subscriptions') (hsubscriptions : ∀ s ∈ subscriptions, known s.1)
    {h : Host σ M} (haccepted : subscribeAll subscriptions (fresh router store app) = .ok () h) :
    ∃ h', subscribeAll subscriptions' (fresh router store app') = .ok () h' ∧
      h.engine.store = store ∧ h'.engine.store = store ∧ Reordered known h h' := by
  have hsends : ∀ d, known d → d.RulesOnly Request.OnlySends :=
    fun d hd => (hknown.tells d hd).sends
  obtain ⟨h₁, hok, hwelcomes₁, honly, hrouter, ⟨_, _, hengine⟩, hhandlers⟩ :=
    (fresh_welcomes router store app).subscribeAll hknown.names hknown.compiles hsends nofun
      hsubscriptions
  obtain ⟨h₂, hok', hwelcomes₂, honly', hrouter', ⟨_, _, hengine'⟩, hhandlers'⟩ :=
    (fresh_welcomes router store app').subscribeAll hknown.names hknown.compiles hsends nofun
      (fun s hs => hsubscriptions s (hperm.mem_iff.2 hs))
  cases haccepted.symm.trans hok
  have hstore : h.engine.store = store := by
    rw [hengine]
    rfl
  have hstore' : h₂.engine.store = store := by
    rw [hengine']
    rfl
  refine ⟨h₂, hok', hstore, hstore', ?_, fun trigger => ?_, fun trigger handler hmem => ?_, ?_, ?_,
    fun key => ?_⟩
  · exact hrouter'.trans hrouter.symm
  · rw [hhandlers, hhandlers']
    exact ((hperm.filter _).map _).append_left _
  · rw [hhandlers] at hmem
    obtain ⟨s, hs, rfl⟩ := List.mem_map.1 ((List.mem_append.1 hmem).resolve_left nofun)
    exact ⟨s.1, rfl, hsubscriptions s (List.mem_of_mem_filter hs)⟩
  · exact ⟨honly, hwelcomes₁.faithful⟩
  · exact ⟨honly', hwelcomes₂.faithful⟩
  · rw [hstore, hstore']

/-- The order of subscriptions does not matter. Let definitions with names of their own, whose
actions go by the message alone, subscribe to a host. Then they can subscribe to another one in any
other order. And when the same messages are delivered live to both, over equal stores, then after
each of them the rows have the same records, what has come into either outbox was posted by the
handlers, each name has posted the same in the same order, and the next message has the same
handlers reported to have succeeded, with the same outcomes, and to have failed, with the same
errors, up to their order. -/
theorem subscription_order_immaterial (router : Router σ M) (store : Store) (app app' : σ)
    {subscriptions subscriptions' : List (Definition σ M × MessageType)}
    (hperm : subscriptions.Perm subscriptions')
    (hnames : ∀ s ∈ subscriptions, ∀ s' ∈ subscriptions, s.1.id.name = s'.1.id.name → s.1 = s'.1)
    (htells : ∀ s ∈ subscriptions, s.1.Tells) {h : Host σ M}
    (haccepted : subscribeAll subscriptions (fresh router store app) = .ok () h) :
    ∃ h', subscribeAll subscriptions' (fresh router store app') = .ok () h' ∧
      ∀ rounds rounds' : List (Timestamp × M), rounds.map Prod.snd = rounds'.map Prod.snd →
        let g := h.served rounds
        let g' := h'.served rounds'
        (∀ key, g.engine.store.record? key = g'.engine.store.record? key) ∧
          g.engine.store.outbox = store.outbox ++ (h.posted rounds).map Prod.snd ∧
          g'.engine.store.outbox = store.outbox ++ (h'.posted rounds').map Prod.snd ∧
          (∀ name, (h.posted rounds).filter (fun p => p.1 = name) =
            (h'.posted rounds').filter (fun p => p.1 = name)) ∧
          g.engine.store.outbox.Perm g'.engine.store.outbox ∧
          ∀ (m : M) (now now' : Timestamp),
            let report := ((g.step (.tick now)).deliver m false).1.1
            let report' := ((g'.step (.tick now')).deliver m false).1.1
            report.handled.Perm report'.handled ∧ report.failed.Perm report'.failed := by
  let known : Definition σ M → Prop := fun d => ∃ s ∈ subscriptions, s.1 = d
  have hsubscriptions : ∀ s ∈ subscriptions, known s.1 := fun s hs => ⟨s, hs, rfl⟩
  have hnames' : ∀ d d', known d → known d' → d.id.name = d'.id.name → d = d' := by
    rintro _ _ ⟨s, hs, rfl⟩ ⟨s', hs', rfl⟩ hname
    exact hnames s hs s' hs' hname
  have hcompiles : ∀ s ∈ subscriptions, ∃ b, s.1.compile = .ok b :=
    subscribeAll_compile
      (fun d d' (hd : known d) (hd' : known d') hid =>
        hnames' d d' hd hd' (congrArg DefinitionId.name hid))
      (fresh_welcomes router store app).faithful hsubscriptions haccepted
  have hknown : Coexist known := by
    refine ⟨hnames', ?_, ?_⟩
    · rintro _ ⟨s, hs, rfl⟩
      exact htells s hs
    · rintro _ ⟨s, hs, rfl⟩
      exact hcompiles s hs
  obtain ⟨h', hok, hstore, hstore', hreordered⟩ :=
    Reordered.of_perm hknown router store app app' hperm hsubscriptions haccepted
  refine ⟨h', hok, fun rounds rounds' hsame => ?_⟩
  intro g g'
  obtain ⟨hserved, houtbox, houtbox', hposted⟩ := hreordered.served hknown hsame
  rw [hstore] at houtbox
  rw [hstore'] at houtbox'
  refine ⟨hserved.records, houtbox, houtbox', hposted, ?_, fun m now now' => ?_⟩
  · rw [houtbox, houtbox']
    exact ((perm_of_filter_eq hposted).map _).append_left _
  · obtain ⟨-, -, -, hendings⟩ := (hserved.step_tick now now').deliver hknown m
    have hends := perm_of_filter_eq hendings
    rw [report_endings, report_endings]
    exact ⟨hends.filterMap _, hends.filterMap _⟩

end Subscriptions

end Host

namespace Echoing
open Pipeline Announcing

/-- A workflow that also tells of the start of a job. -/
def definition : Definition Unit JobMessage where
  id := ⟨"echoing", 0⟩
  states := stages
  rules := [
    .start Event.start.type stages.processing [announce "Heard"],
    .correlate Event.start.type JobMessage.id]

/-- The announcing workflow subscribes twice to the start of jobs, and the other one after it. -/
def subscriptions : List (Definition Unit JobMessage × MessageType) := [
  (Announcing.definition, Event.start.type), (Announcing.definition, Event.start.type),
  (definition, Event.start.type), (Announcing.definition, Event.complete.type)]

/-- A job is started and completes. -/
def rounds : List (Timestamp × JobMessage) := [(1, ⟨.start, "7"⟩), (2, ⟨.complete, "7"⟩)]

/-- Two definitions are subscribed. -/
lemma subscriptions_cases {s : Definition Unit JobMessage × MessageType} (hs : s ∈ subscriptions) :
    s.1 = Announcing.definition ∨ s.1 = definition := by
  simp only [subscriptions, List.mem_cons, List.not_mem_nil, or_false] at hs
  rcases hs with rfl | rfl | rfl | rfl
  · exact .inl rfl
  · exact .inl rfl
  · exact .inr rfl
  · exact .inl rfl

/-- The actions of the workflow go by the message alone. -/
lemma tells : definition.Tells := by
  refine List.forall_mem_cons.2 ⟨List.forall_mem_cons.2 ⟨announce_tells _, nofun⟩, ?_⟩
  exact List.forall_mem_cons.2 ⟨nofun, nofun⟩

/-- The host to which the workflows have subscribed in this order or the other. -/
def host (subscriptions : List (Definition Unit JobMessage × MessageType)) :
    Host Unit JobMessage :=
  Run.final (Host.subscribeAll subscriptions (Host.fresh {} {} ()))

/-- In the opposite order the workflows post in the opposite order, but each of them the same; the
rows have the same records after the job, and a message that nobody can take is reported alike. -/
theorem echoing_order :
    subscriptions.Perm subscriptions.reverse ∧
      (∀ s ∈ subscriptions, ∀ s' ∈ subscriptions, s.1.id.name = s'.1.id.name → s.1 = s'.1) ∧
      (∀ s ∈ subscriptions, s.1.Tells) ∧
      Host.subscribeAll subscriptions (Host.fresh {} {} ()) = .ok () (host subscriptions) ∧
      (∃ h', Host.subscribeAll subscriptions.reverse (Host.fresh {} {} ()) = .ok () h' ∧
        (∀ key, ((host subscriptions).served rounds).engine.store.record? key =
          (h'.served rounds).engine.store.record? key) ∧
        ∀ name, ((host subscriptions).posted rounds).filter (fun p => p.1 = name) =
          (h'.posted rounds).filter (fun p => p.1 = name)) ∧
      ((host subscriptions).posted rounds).map (fun p => (p.1, p.2.messageType)) =
        [("announcing", "Started"), ("echoing", "Heard"), ("announcing", "Completed"),
          ("announcing", "Idle")] ∧
      ((host subscriptions.reverse).posted rounds).map (fun p => (p.1, p.2.messageType)) =
        [("echoing", "Heard"), ("announcing", "Started"), ("announcing", "Completed"),
          ("announcing", "Idle")] := by
  have hperm : subscriptions.Perm subscriptions.reverse := (List.reverse_perm _).symm
  have hnames : ∀ s ∈ subscriptions, ∀ s' ∈ subscriptions,
      s.1.id.name = s'.1.id.name → s.1 = s'.1 := by
    intro s hs s' hs' hname
    rcases subscriptions_cases hs with h | h <;> rcases subscriptions_cases hs' with h' | h' <;>
      rw [h, h'] at hname ⊢
    · exact absurd hname (by decide)
    · exact absurd hname (by decide)
  have htells : ∀ s ∈ subscriptions, s.1.Tells := by
    intro s hs
    rcases subscriptions_cases hs with h | h <;> rw [h]
    · exact Announcing.tells
    · exact tells
  have haccepted : Host.subscribeAll subscriptions (Host.fresh {} {} ()) =
      .ok () (host subscriptions) := by
    have hnone :
        (Run.result (Host.subscribeAll subscriptions (Host.fresh {} {} ()))).isOk = true := by
      decide +kernel
    unfold host
    cases h : Host.subscribeAll subscriptions (Host.fresh {} {} ()) with
    | ok u h' => rfl
    | error e h' =>
      rw [h] at hnone
      cases hnone
  obtain ⟨h', hok, hserved⟩ :=
    Host.subscription_order_immaterial {} {} () () hperm hnames htells haccepted
  obtain ⟨hrecords, -, -, hposted, -⟩ := hserved rounds rounds rfl
  refine ⟨hperm, hnames, htells, haccepted, ⟨h', hok, hrecords, hposted⟩, ?_, ?_⟩
  · decide +kernel
  · decide +kernel

end Echoing

end Saga
