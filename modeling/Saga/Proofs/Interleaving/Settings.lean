import Saga.Proofs.Dispatch.Atomicity
import Saga.Proofs.Interleaving.LookUp
import Saga.Router

/-!
# The two settings of a store

Whether a store compares versions matters to a commit alone. All else that a delivery is asked for,
short of what other deliveries do, comes out the same under any options (`Script.Only.run_under`).
And a dispatch that nobody disturbs commits what it has earned from the row that is still there,
which is taken under any options too (`Errand.Earned.commit_under`). So jobs that are dispatched one
after the other come to the same under both settings (`Engine.dispatched_under`).
-/

namespace Saga

variable {σ M : Type}

/-- Neither stages a row, nor commits, nor has another delivery do anything. -/
def Request.KeepsToItself : Request M → Prop
  | .add _ | .update _ | .commit | .forward _ _ => False
  | _ => True

namespace Request.KeepsToItself

variable {r : Request M}

/-- A request that keeps to itself stages no row and commits nothing. -/
lemma keepsRows (h : r.KeepsToItself) : r.KeepsRows := by
  cases r with
  | add _ | update _ | commit => exact h.elim
  | _ => trivial

/-- A request that keeps to itself neither commits nor forwards. -/
lemma staysInside (h : r.KeepsToItself) : r.StaysInside := by
  cases r with
  | commit | forward _ _ => exact h.elim
  | _ => trivial

end Request.KeepsToItself

/-- The store with other options. -/
def Store.under (s : Store) (options : StoreOptions) : Store := { s with options }

/-- The engine with other options of its store. -/
def Engine.under (e : Engine σ M) (options : StoreOptions) : Engine σ M :=
  { e with store := e.store.under options }

/-- The delivery with other options of its store. -/
def Delivery.under (s : Delivery σ M) (options : StoreOptions) : Delivery σ M :=
  { s with store := s.store.under options }

/-- The run that ends in another state. -/
def Run.mapFinal {ε δ α : Type} (f : δ → δ) : EStateM.Result ε δ α → EStateM.Result ε δ α
  | .ok a s => .ok a (f s)
  | .error e s => .error e (f s)

variable {scope : Scope σ M} {options : StoreOptions}

namespace Scope

/-- What is done with a service comes out the same under other options if the service does. -/
lemma bind_require_under {α : Type} {name : ServiceName} {f : name.Provider σ M → Run σ M α}
    {s : Delivery σ M}
    (hf : ∀ p, scope.services.get? name = some p →
      f p (s.under options) = Run.mapFinal (·.under options) (f p s)) :
    (scope.require name >>= f) (s.under options) =
      Run.mapFinal (·.under options) ((scope.require name >>= f) s) := by
  show EStateM.bind (scope.require name) f (s.under options) =
    Run.mapFinal _ (EStateM.bind (scope.require name) f s)
  rw [EStateM.bind, EStateM.bind, require_apply, require_apply]
  cases hp : scope.services.get? name with
  | none => rfl
  | some p => exact hf p hp

/-- A request that stays inside comes to the same under both settings. -/
lemma perform_under (h : scope.services.OfSession) {r : Request M} (hr : r.StaysInside)
    (s : Delivery σ M) :
    scope.perform r (s.under options) = Run.mapFinal (·.under options) (scope.perform r s) := by
  have hstage : ∀ write, Delivery.stage write (s.under options) =
      Run.mapFinal (·.under options) (Delivery.stage write s) := by
    intro write
    rw [Delivery.stage_apply, Delivery.stage_apply]
    have hsame : (s.under options).session.stage write = s.session.stage write := rfl
    rw [hsame]
    cases s.session.stage write <;> rfl
  have henqueue : ∀ message, Delivery.enqueue message (s.under options) =
      Run.mapFinal (·.under options) (Delivery.enqueue message s) := by
    intro message
    rw [Delivery.enqueue_apply, Delivery.enqueue_apply]
    have hsame : (s.under options).session.enqueue (s.under options).cancelled message =
        s.session.enqueue s.cancelled message := rfl
    rw [hsame]
    cases s.session.enqueue s.cancelled message <;> rfl
  cases r with
  | find key =>
    refine bind_require_under fun p hp => ?_
    cases h.repository p hp
    show Delivery.find key _ = Run.mapFinal _ (Delivery.find key s)
    rw [Delivery.find_apply, Delivery.find_apply]
    have hsame : (s.under options).session.find (s.under options).store (s.under options).cancelled
        key = s.session.find s.store s.cancelled key := rfl
    rw [hsame]
    cases s.session.find s.store s.cancelled key <;> rfl
  | add record =>
    refine bind_require_under fun p hp => ?_
    cases h.repository p hp
    exact hstage (.add record)
  | update record =>
    refine bind_require_under fun p hp => ?_
    cases h.repository p hp
    exact hstage (.update record)
  | send command =>
    refine bind_require_under fun p hp => ?_
    cases h.commandSender p hp
    exact henqueue command
  | publish notification =>
    refine bind_require_under fun p hp => ?_
    cases h.notificationPublisher p hp
    exact henqueue notification
  | require service => exact bind_require_under fun p hp => rfl
  | commit => exact hr.elim
  | forward definition message => exact hr.elim
  | _ => rfl

end Scope

/-- A script that stays inside its delivery comes to the same under other options. -/
lemma Script.Only.run_under {ε α : Type} (h : scope.services.OfSession) {script : Script σ M ε α}
    (hscript : script.Only Request.StaysInside) (s : Delivery σ M) :
    script.run scope (s.under options) =
      Run.mapFinal (·.under options) (script.run scope s) := by
  induction script generalizing s with
  | done a => rfl
  | fail e => rfl
  | app change next ih => exact ih s.app (hscript s.app) { s with app := change s.app }
  | request r next ih =>
    obtain ⟨hr, hnext⟩ := hscript
    simp only [Script.run, Scope.perform_under h hr]
    cases scope.perform r s with
    | ok answer s' => exact ih (.ok answer) (hnext _) s'
    | error e s' => exact ih (.error e) (hnext _) s'

/-- A commit comes out the same under other options if the store takes its batch just the same. -/
lemma Delivery.commit_under {s : Delivery σ M}
    (h : (s.store.under options).commit s.now s.session.writes s.session.messages =
      (s.store.commit s.now s.session.writes s.session.messages).map (·.under options)) :
    Delivery.commit (s.under options) = Run.mapFinal (·.under options) (Delivery.commit s) := by
  have hsession : (s.under options).session.commit (s.under options).store
      (s.under options).cancelled (s.under options).now =
      (s.session.commit s.store s.cancelled s.now).map fun stored =>
        (stored.1, stored.2.under options) := by
    show s.session.commit (s.store.under options) s.cancelled s.now = _
    unfold Session.commit
    rw [h]
    cases s.cancelled with
    | true => rfl
    | false =>
      unfold Session.checkOpen
      cases s.session.committed with
      | true => rfl
      | false => cases s.store.commit s.now s.session.writes s.session.messages <;> rfl
  rw [commit_apply, commit_apply, hsession]
  cases s.session.commit s.store s.cancelled s.now <;> rfl

/-- Fetching a blueprint comes to the same under both settings. -/
lemma Registry.blueprint_under (d : Definition σ M) (trigger : MessageType) (s : Delivery σ M) :
    Registry.blueprint d trigger (s.under options) =
      Run.mapFinal (·.under options) (Registry.blueprint d trigger s) := by
  unfold Registry.blueprint
  rw [getOrBuild_apply, getOrBuild_apply]
  have hsame : (s.under options).registry = s.registry := rfl
  rw [hsame]
  cases hlookup : s.registry.lookup ⟨d.id, trigger⟩ with
  | some cached =>
    dsimp only
    cases expect ⟨d.id, trigger⟩ d.states cached <;> rfl
  | none =>
    simp only [Definition.compileLogged_apply]
    cases d.compile with
    | error e => rfl
    | ok b =>
      simp only [insertIfAbsent, Delivery.logged, hsame, hlookup, expect, as?_self]
      rfl

section Errand

variable [Message M]

namespace Errand

variable {e : Errand σ M} {key : InstanceKey} {found : Option InstanceRecord}

/-- A run of a script that goes by the phases, and leaves other deliveries alone, ends in a phase
that is carried. -/
lemma Follows.run_ok {α : Type} {phase : Phase e.definition.states}
    {post : Phase e.definition.states → α → Prop} {script : Script σ M EngineError α}
    (hfollows : e.Follows post phase script) (hown : scope.services.OfSession)
    (hinside : script.Only Request.StaysInside) {s s' : Delivery σ M} {a : α}
    (hcarries : e.Carries s.store s.session phase) (hrun : script.run scope s = .ok a s') :
    ∃ phase', post phase' a ∧ e.Carries s'.store s'.session phase' := by
  induction script generalizing phase s with
  | done result =>
    cases hrun
    exact ⟨phase, hfollows, hcarries⟩
  | fail error => cases hrun
  | app change next ih =>
    exact ih s.app (hfollows.2 s.app) (hinside s.app) (s := { s with app := change s.app }) hcarries
      hrun
  | request r next ih =>
    obtain ⟨hr, hnext⟩ := hinside
    rw [Script.run_request] at hrun
    rcases Scope.perform_cases hown hr.not_forwards s with
      ⟨error, hperform⟩ | ⟨answer, s₁, hperform, hdoes⟩
    · rw [hperform] at hrun
      obtain ⟨phase', hmoves, hrest⟩ := hfollows (.error error) (Scope.meets_of_error hperform)
      cases hmoves.of_error
      exact ih (.error error) hrest (hnext _) hcarries hrun
    · rw [hperform] at hrun
      obtain ⟨phase', hmoves, hrest⟩ := hfollows (.ok answer) (r.meets_ok answer)
      exact ih (.ok answer) hrest (hnext _) (stepped_of_moves hcarries hdoes hmoves).carries hrun

/-- A reaction to what stands under the key, with an outcome that writes, has staged what is earned
from it, and nothing else. -/
lemma earned_of_react (e : Errand σ M) (hown : scope.services.OfSession)
    (hb : e.blueprint.Only Request.KeepsToItself e.message) (hconcerns : e.Concerns key)
    {s s' : Delivery σ M} (hsession : s.session = {}) {outcome : Outcome e.definition.states}
    (hrun : (e.definition.react e.options e.blueprint key e.message
      ((s.store.get? key).map StoredInstance.record)).run scope s = .ok outcome s')
    (hwrites : outcome.writes = true) :
    s'.store = s.store ∧ ∃ write, s'.session.writes = [write] ∧
      e.Earned key ((s.store.get? key).map StoredInstance.record) write outcome := by
  have hreact := Definition.react_only (hb.weaken fun _ hr => hr.staysInside) e.options key
    ((s.store.get? key).map StoredInstance.record)
  have hstore := hreact.run_store hown s
  rw [hrun, Run.final_ok] at hstore
  refine ⟨hstore, ?_⟩
  have hcarries : e.Carries s.store s.session
      (.acting key ((s.store.get? key).map StoredInstance.record)) := by
    rw [hsession]
    exact ⟨rfl, rfl, hconcerns, Store.knows_get? s.store key⟩
  have hfollows := react_follows (hb.weaken fun _ hr => hr.keepsRows) key
    ((s.store.get? key).map StoredInstance.record)
  obtain ⟨phase, hholds, hcarries'⟩ := hfollows.run_ok hown hreact hcarries hrun
  rcases hholds with ⟨-, hnot⟩ | ⟨write, rfl, -⟩
  · cases hwrites.symm.trans hnot
  · obtain ⟨hstaged, -, -, -, hearned⟩ := hcarries'
    exact ⟨write, hstaged, hearned⟩

/-- What was earned from the row that is still there is committed alike under both settings. -/
lemma Earned.commit_under {s : Store} {write : StagedWrite} {outcome : Outcome e.definition.states}
    (h : e.Earned key found write outcome)
    (hfound : found = (s.get? key).map StoredInstance.record) (now : Timestamp)
    (messages : List Envelope) :
    (s.under options).commit now [write] messages =
      (s.commit now [write] messages).map (·.under options) := by
  have hfound' : found = ((s.under options).get? key).map StoredInstance.record := hfound
  -- Either store takes the write, and what it makes of its table does not depend on the options.
  obtain ⟨after, hcommit⟩ := h.commits hfound now messages
  obtain ⟨after', hcommit'⟩ := h.commits hfound' now messages
  obtain ⟨-, rfl⟩ := Store.commit_eq_ok_iff.1 hcommit
  obtain ⟨-, rfl⟩ := Store.commit_eq_ok_iff.1 hcommit'
  rw [hcommit, hcommit']
  rfl

end Errand

namespace Definition
open Script

variable {d : Definition σ M} {dispatching : DispatchOptions} {b : Blueprint σ M d.states} {m : M}
  {s : Delivery σ M}

omit [Message M] in
/-- A conclusion comes to the same under both settings, if its commit does. -/
lemma conclude_under (hown : scope.services.OfSession) {outcome : Outcome d.states}
    (hcommit : outcome.writes = true → Delivery.commit (s.under options) =
      Run.mapFinal (·.under options) (Delivery.commit s)) :
    (d.conclude outcome).run scope (s.under options) =
      Run.mapFinal (·.under options) ((d.conclude outcome).run scope s) := by
  cases hwrites : outcome.writes with
  | false =>
    rw [conclude_of_not_writes hwrites]
    rfl
  | true =>
    have hperform : scope.perform .commit (s.under options) =
        Run.mapFinal (·.under options) (scope.perform .commit s) := by
      refine Scope.bind_require_under fun p hp => ?_
      cases hown.unitOfWork p hp
      exact hcommit hwrites
    have hrun : (Script.commit : Script σ M EngineError Unit).run scope (s.under options) =
        Run.mapFinal (·.under options) (Script.commit.run scope s) := by
      unfold Script.commit
      rw [run_ask, run_ask, hperform]
      cases scope.perform .commit s <;> rfl
    simp only [Definition.conclude, hwrites, if_true, bind_eq, run_bind, hrun]
    cases (Script.commit : Script σ M EngineError Unit).run scope s <;> rfl

/-- A dispatch whose actions keep to themselves comes to the same under other options, from the
look-up in a fresh session on. -/
lemma script_under (hown : scope.services.OfSession) (hb : b.Only Request.KeepsToItself m)
    (hsession : s.session = {}) :
    (d.script dispatching b m).run scope (s.under options) =
      Run.mapFinal (·.under options) ((d.script dispatching b m).run scope s) := by
  let e : Errand σ M := ⟨d, dispatching, b, m⟩
  have honly : (d.locate b m).Only Request.StaysInside :=
    locate_only (fun _ => trivial) (fun _ => trivial) trivial
  rw [script_eq, run_bind, run_bind, honly.run_under hown]
  rcases locate_run (b := b) hown s with ⟨error, hlocate⟩ | ⟨key, hid, hname, -, hlocate⟩
  · rw [hlocate]
    rfl
  · have hread : s.session.read s.store key = (s.store.get? key).map StoredInstance.record := by
      rw [hsession]
      rfl
    rw [hlocate, hread]
    have hreact := react_only (hb.weaken fun _ hr => hr.staysInside) dispatching key
      ((s.store.get? key).map StoredInstance.record)
    show ((d.react dispatching b key m _).bind d.conclude).run scope (s.under options) =
      Run.mapFinal _ (((d.react dispatching b key m _).bind d.conclude).run scope s)
    rw [run_bind, run_bind, hreact.run_under hown]
    cases hrun : (d.react dispatching b key m ((s.store.get? key).map StoredInstance.record)).run
        scope s with
    | error error s₁ => rfl
    | ok outcome s₁ =>
      -- Only the commit looks at the options, and it has been earned from the row that is there.
      refine conclude_under hown fun hwrites => Delivery.commit_under ?_
      obtain ⟨hstore, write, hstaged, hearned⟩ :=
        e.earned_of_react hown hb ⟨hid, hname⟩ hsession hrun hwrites
      rw [hstaged]
      exact hearned.commit_under (by rw [hstore]) s₁.now s₁.session.messages

/-- A dispatch in a fresh session comes to the same under both settings. -/
lemma dispatch_under (hown : scope.services.OfSession)
    (hd : d.RulesOnly Request.KeepsToItself) (hregistry : s.registry.Only Request.KeepsToItself)
    (hsession : s.session = {}) :
    d.dispatch dispatching scope m (s.under options) =
      Run.mapFinal (·.under options) (d.dispatch dispatching scope m s) := by
  rw [dispatch_apply, dispatch_apply, Registry.blueprint_under]
  rcases Registry.blueprint_cases d (Message.type m) s with
    ⟨error, hfetch⟩ | ⟨b, registry, log, hfetch, horigin⟩
  · rw [hfetch]
    rfl
  · rw [hfetch]
    obtain ⟨hb, -⟩ := hregistry.of_origin hd horigin
    exact script_under hown (hb m) (s := { s with registry, log }) hsession

/-- A dispatch that has its blueprint leaves the registry alone. -/
lemma script_registry (hown : scope.services.OfSession) (hb : b.Only Request.StaysInside m)
    (s : Delivery σ M) :
    (Run.final ((d.script dispatching b m).run scope s)).registry = s.registry := by
  refine Only.run_does (I := fun s' => s'.registry = s.registry) hown (fun _ hr => hr) ?_ ?_
    (script_only (hb.weaken fun _ hr => hr.not_forwards)) s rfl
  · exact fun _ _ hs' => hs'
  · exact fun _ _ _ _ _ hdoes hs' => hdoes.registry.trans hs'

/-- A dispatch keeps no blueprint with a forbidden request if none was kept and the definition has
none. -/
lemma dispatch_registry (hown : scope.services.OfSession) (hd : d.RulesOnly Request.KeepsToItself)
    (hregistry : s.registry.Only Request.KeepsToItself) :
    (Run.final (d.dispatch dispatching scope m s)).registry.Only Request.KeepsToItself := by
  rw [dispatch_apply]
  rcases Registry.blueprint_cases d (Message.type m) s with
    ⟨error, hfetch⟩ | ⟨b, registry, log, hfetch, horigin⟩
  · rw [hfetch]
    exact hregistry
  · rw [hfetch]
    obtain ⟨hb, hregistry'⟩ := hregistry.of_origin hd horigin
    have hinside : b.Only Request.StaysInside m := (hb m).weaken fun _ hr => hr.staysInside
    show (Run.final ((d.script dispatching b m).run scope { s with registry, log })).registry.Only _
    rw [script_registry hown hinside]
    exact hregistry'

end Definition

/-- What the dispatch of a job comes to by itself. -/
def Job.dispatch (job : Job σ M) (router : Router σ M) (engine : Engine σ M) :
    EStateM.Result EngineError (Delivery σ M) (Outcome job.definition.states) :=
  job.definition.dispatch job.options ⟨job.services, router.forward job.depth⟩ job.message
    (engine.delivery job.cancelled)

namespace Engine

variable {router : Router σ M}

/-- The engine after jobs were dispatched one after the other, each at its time. -/
def dispatched (engine : Engine σ M) (router : Router σ M) (jobs : List (Timestamp × Job σ M)) :
    Engine σ M :=
  jobs.foldl
    (fun e round => (Run.final (round.2.dispatch router { e with now := round.1 })).toEngine) engine

/-- Dispatches in turn leave a registry of blueprints whose actions keep to themselves. -/
lemma dispatched_registry {engine : Engine σ M} {jobs : List (Timestamp × Job σ M)}
    (hregistry : engine.registry.Only Request.KeepsToItself)
    (hjobs : ∀ round ∈ jobs, round.2.definition.RulesOnly Request.KeepsToItself) :
    (engine.dispatched router jobs).registry.Only Request.KeepsToItself := by
  induction jobs generalizing engine with
  | nil => exact hregistry
  | cons round jobs ih =>
    obtain ⟨hround, hrest⟩ := List.forall_mem_cons.1 hjobs
    refine ih ?_ hrest
    exact Definition.dispatch_registry round.2.own hround hregistry

/-- A dispatch of the engine comes to the same under both settings. -/
lemma dispatch_under {engine : Engine σ M} {round : Timestamp × Job σ M}
    (hregistry : engine.registry.Only Request.KeepsToItself)
    (hround : round.2.definition.RulesOnly Request.KeepsToItself) (options : StoreOptions) :
    round.2.dispatch router { engine.under options with now := round.1 } =
      Run.mapFinal (·.under options) (round.2.dispatch router { engine with now := round.1 }) :=
  Definition.dispatch_under (s := Engine.delivery { engine with now := round.1 } round.2.cancelled)
    round.2.own hround hregistry rfl

/-- Jobs that are dispatched one after the other, and keep to themselves, come to the same under
other options. -/
lemma dispatched_under {engine : Engine σ M} {jobs : List (Timestamp × Job σ M)}
    (hregistry : engine.registry.Only Request.KeepsToItself)
    (hjobs : ∀ round ∈ jobs, round.2.definition.RulesOnly Request.KeepsToItself)
    (options : StoreOptions) :
    (engine.under options).dispatched router jobs =
      (engine.dispatched router jobs).under options := by
  induction jobs generalizing engine with
  | nil => rfl
  | cons round jobs ih =>
    obtain ⟨hround, hrest⟩ := List.forall_mem_cons.1 hjobs
    have hengine : (Run.final (round.2.dispatch router
        { engine.under options with now := round.1 })).toEngine =
        (Run.final (round.2.dispatch router { engine with now := round.1 })).toEngine.under
          options := by
      rw [dispatch_under hregistry hround]
      cases round.2.dispatch router { engine with now := round.1 } <;> rfl
    have hnext : (Run.final (round.2.dispatch router
        { engine with now := round.1 })).registry.Only Request.KeepsToItself :=
      Definition.dispatch_registry round.2.own hround hregistry
    have hsame : ((Run.final (round.2.dispatch router
        { engine with now := round.1 })).toEngine.under options).dispatched router jobs = _ :=
      ih hnext hrest
    rw [← hengine] at hsame
    exact hsame

/-- After others in turn a dispatch has the same result under both settings. -/
lemma result_under {engine : Engine σ M} {before after : List (Timestamp × Job σ M)}
    {round : Timestamp × Job σ M} (hregistry : engine.registry.Only Request.KeepsToItself)
    (hjobs : ∀ round' ∈ before ++ round :: after,
      round'.2.definition.RulesOnly Request.KeepsToItself) (options : StoreOptions) :
    Run.result (round.2.dispatch router
        { (engine.under options).dispatched router before with now := round.1 }) =
      Run.result (round.2.dispatch router
        { engine.dispatched router before with now := round.1 }) := by
  obtain ⟨hbefore, hrest⟩ := List.forall_mem_append.1 hjobs
  obtain ⟨hround, -⟩ := List.forall_mem_cons.1 hrest
  rw [dispatched_under hregistry hbefore,
    dispatch_under (dispatched_registry hregistry hbefore) hround]
  cases round.2.dispatch router { engine.dispatched router before with now := round.1 } <;> rfl

end Engine

end Errand

end Saga
