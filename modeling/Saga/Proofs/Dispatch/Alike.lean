import Mathlib.Data.List.Forall2
import Saga.Proofs.Dispatch.Live

/-!
# Engines that cannot be told apart

Two engines are alike when nothing but versions, times, the number of commits and the log tells them
apart (`Engine.Alike`). A live dispatch whose actions only send takes alike engines to alike
engines, starts the same actions and has the same outcome up to the flag of an ignored message,
whatever either of them does about unchanged rows (`Definition.dispatch_alike`).
-/

namespace Saga

variable {σ M : Type}

/-- Whether engines differ at most in the versions and the times of their rows, the number of their
commits, their clocks and their logs. -/
structure Engine.Alike (e e' : Engine σ M) : Prop where
  states : ∀ key, e.store.state? key = e'.store.state? key
  outbox : e.store.outbox = e'.store.outbox
  options : e.store.options = e'.store.options
  registry : e.registry = e'.registry
  app : e.app = e'.app

/-- An engine is like itself. -/
lemma Engine.Alike.refl (e : Engine σ M) : e.Alike e := ⟨fun _ => rfl, rfl, rfl, rfl, rfl⟩

/-- Upshots that hold in alike engines leave them alike. -/
lemma Upshot.Holds.alike {S : StateSet} {u : Upshot S σ} {key : InstanceKey}
    {e e' f f' : Engine σ M}
    {result result' : Except EngineError (Outcome S)} (hregistry : f.registry = f'.registry)
    (halike : e.Alike e') (h : u.Holds key e.store result f.app f.store)
    (h' : u.Holds key e'.store result' f'.app f'.store) :
    result.map Outcome.unflagged = result'.map Outcome.unflagged ∧ f.Alike f' := by
  refine ⟨h.result.trans h'.result.symm, fun other => ?_, ?_, ?_, hregistry,
    h.app.trans h'.app.symm⟩
  · rw [h.states, h'.states, halike.states]
  · rw [h.outbox, h'.outbox, halike.outbox]
  · rw [h.options, h'.options, halike.options]

variable [Message M]

namespace Definition

variable {d : Definition σ M} {options options' : DispatchOptions} {scope scope' : Scope σ M}
  {m : M}

/-- Which rule is there for a record is decided by the ordinal in it. -/
lemma matching?_congr {b : Blueprint σ M d.states} {found found' : Option InstanceRecord}
    (h : found.map InstanceRecord.state = found'.map InstanceRecord.state) :
    d.matching? b m found = d.matching? b m found' := by
  cases found with
  | none =>
    rw [Option.map_eq_none_iff.1 h.symm]
  | some record =>
    obtain ⟨record', rfl, hstate⟩ := Option.map_eq_some_iff.1 h.symm
    simp only [matching?, hstate]

/-- The actions before one of a rule leave the delivery live, and succeed in it as they do on their
own. -/
lemma run_before {b : Blueprint σ M d.states} (hservices : scope.services.Complete)
    (hb : b.Only Request.OnlySends m) (fetched : Delivery σ M) (hsession : fetched.session = {})
    (hlive : fetched.cancelled = false) (index : Nat) {found : Option InstanceRecord}
    {actions : List (Action σ M)} (hmatching : d.matching? b m found = some actions) :
    ∃ s, (runActions b.definition.name (Message.type m).name m 0 (actions.take index)).run scope
        fetched = Run.ended (b.emit scope m (actions.take index) fetched.app).result s ∧
      s.cancelled = false := by
  have hopen : fetched.session.committed = false := by rw [hsession]
  have honly : (runActions b.definition.name (Message.type m).name m 0
      (actions.take index)).Only Request.OnlySends :=
    runActions_only trivial _ _ m 0 fun action hmem =>
      hb action (triggers_of_matching hmatching (List.mem_of_mem_take hmem))
  obtain ⟨log, hrun⟩ := Script.run_emission hservices honly fetched hlive hopen
  rw [Script.emission_runActions] at hrun
  exact ⟨_, hrun, hlive⟩

/-- An action comes to be started if it belongs to the rule that is there and those before it
succeed on their own. -/
lemma starts_iff {b : Blueprint σ M d.states} (hservices : scope.services.Complete)
    (hb : b.Only Request.OnlySends m) (fetched : Delivery σ M) (hsession : fetched.session = {})
    (hlive : fetched.cancelled = false) (index : Nat) (action : Action σ M) :
    (∃ s, d.Starts scope b m fetched index action s) ↔
      ∃ id actions, b.correlate m = .ok id ∧
        d.matching? b m ((fetched.store.get? ⟨id, d.id.name⟩).map StoredInstance.record) =
          some actions ∧
        actions[index]? = some action ∧
        (b.emit scope m (actions.take index) fetched.app).result = .ok () := by
  have hread : ∀ key, fetched.session.read fetched.store key =
      (fetched.store.get? key).map StoredInstance.record := by
    intro key
    rw [hsession]
    rfl
  constructor
  · rintro ⟨s, key, found, actions, hlocate, hmatching, hat, hrun, -⟩
    rcases locate_run (d := d) (b := b) (m := m) hservices.ofSession fetched with
      ⟨e, hfailed⟩ | ⟨key', hcorrelate, hname, -, hlocate'⟩
    · cases hlocate.symm.trans hfailed
    · cases hlocate.symm.trans hlocate'
      obtain ⟨id, definition⟩ := key
      cases hname
      obtain ⟨s', hrun', -⟩ := run_before hservices hb fetched hsession hlive index hmatching
      rw [hread] at hmatching
      refine ⟨id, actions, hcorrelate, hmatching, hat, ?_⟩
      rw [hrun] at hrun'
      cases hresult : (b.emit scope m (actions.take index) fetched.app).result with
      | ok u => rfl
      | error e =>
        rw [hresult] at hrun'
        cases hrun'
  · rintro ⟨id, actions, hcorrelate, hmatching, hat, hemit⟩
    obtain ⟨select, hselect, hid, rfl⟩ := Blueprint.correlate_eq_ok_iff.1 hcorrelate
    have hlocate := locate_run_of_live (d := d) hservices hselect hid hlive
    rw [hread] at hlocate
    obtain ⟨s, hrun, hs⟩ := run_before hservices hb fetched hsession hlive index hmatching
    rw [hemit] at hrun
    exact ⟨s, _, _, actions, hlocate, hmatching, hat, hrun, hs⟩

/-- Whether a dispatch that sets out from a delivery comes to start an action. -/
def StartsFrom (d : Definition σ M) (scope : Scope σ M) (m : M) (s : Delivery σ M) (index : Nat)
    (action : Action σ M) : Prop :=
  ∃ b fetched t, Registry.blueprint d (Message.type m) s = .ok b fetched ∧
    d.Starts scope b m fetched index action t

/-- A dispatch that has its blueprint starts the actions that it starts from there on. -/
lemma startsFrom_of_fetched {b : Blueprint σ M d.states} {s fetched : Delivery σ M} {index : Nat}
    {action : Action σ M} (hfetch : Registry.blueprint d (Message.type m) s = .ok b fetched) :
    d.StartsFrom scope m s index action ↔ ∃ t, d.Starts scope b m fetched index action t := by
  constructor
  · rintro ⟨b', fetched', t, hfetch', hstarts⟩
    cases hfetch.symm.trans hfetch'
    exact ⟨t, hstarts⟩
  · rintro ⟨t, hstarts⟩
    exact ⟨b, fetched, t, hfetch, hstarts⟩

/-- Whether two dispatches take the same course: the same outcome up to the flag of an ignored
message, or the same failure, and the same actions. -/
structure SameCourse (d : Definition σ M) (options options' : DispatchOptions)
    (scope scope' : Scope σ M) (m : M) (s s' : Delivery σ M) : Prop where
  result : (Run.result (d.dispatch options scope m s)).map Outcome.unflagged =
    (Run.result (d.dispatch options' scope' m s')).map Outcome.unflagged
  actions : ∀ index action,
    d.StartsFrom scope m s index action ↔ d.StartsFrom scope' m s' index action

/-- Whether a live delivery in a fresh session keeps blueprints that only send. -/
structure Ready (s : Delivery σ M) : Prop where
  session : s.session = {}
  live : s.cancelled = false
  registry : s.registry.Only Request.OnlySends

/-- Of the scope the upshot depends on the services alone. -/
lemma upshot_congr (hscope : scope'.services = scope.services) (b : Blueprint σ M d.states)
    (key : InstanceKey) (app : σ) (state : Option Int32) :
    d.upshot scope' b m key app state = d.upshot scope b m key app state := by
  unfold upshot Blueprint.emit
  rw [hscope]

section Twins

variable {s s' : Delivery σ M} (hservices : scope.services.Complete)
  (hscope : scope'.services = scope.services) (hd : d.RulesOnly Request.OnlySends)
  (hs : Ready s) (hs' : Ready s') (halike : s.toEngine.Alike s'.toEngine)

include hservices hd hs in

/-- A dispatch leaves its delivery live, with blueprints that only send. -/
lemma dispatch_stays (options : DispatchOptions) (m : M) :
    (Run.final (d.dispatch options scope m s)).cancelled = false ∧
      (Run.final (d.dispatch options scope m s)).registry.Only Request.OnlySends := by
  rcases dispatch_live options hservices hd hs.registry hs.session hs.live with
    ⟨e, -, hrun⟩ | ⟨b, registry, log, -, -, -, hregistry, hlived⟩
  · rw [hrun]
    exact ⟨hs.live, hs.registry⟩
  · rw [hlived.registry]
    exact ⟨hlived.live, hregistry⟩

include hservices hscope hs hs' halike

/-- The same actions are started from alike engines with the same blueprint. -/
lemma startsFrom_iff {b : Blueprint σ M d.states} (hb : b.Only Request.OnlySends m)
    {registry registry' : Registry σ M} {log log' : List LogEntry}
    (hfetch : Registry.blueprint d (Message.type m) s = .ok b { s with registry, log })
    (hfetch' : Registry.blueprint d (Message.type m) s' =
      .ok b { s' with registry := registry', log := log' }) (index : Nat) (action : Action σ M) :
    d.StartsFrom scope m s index action ↔ d.StartsFrom scope' m s' index action := by
  have hservices' : scope'.services.Complete := by rw [hscope]; exact hservices
  have hstate : ∀ key, ((s.store.get? key).map StoredInstance.record).map InstanceRecord.state =
      ((s'.store.get? key).map StoredInstance.record).map InstanceRecord.state := by
    intro key
    rw [Option.map_map, Option.map_map]
    exact halike.states key
  have happ : s.app = s'.app := halike.app
  have hiff := starts_iff hservices hb { s with registry, log } hs.session hs.live index action
  have hiff' := starts_iff hservices' hb { s' with registry := registry', log := log' }
    hs'.session hs'.live index action
  rw [startsFrom_of_fetched hfetch, startsFrom_of_fetched hfetch', hiff, hiff']
  simp only [matching?_congr (hstate _), Blueprint.emit, hscope, happ]

omit hservices hs hs' in
/-- Two dispatches that have fetched the same blueprint from alike engines come to the same. -/
lemma Lived.alike {b : Blueprint σ M d.states} {registry : Registry σ M}
    {run run' : EStateM.Result EngineError (Delivery σ M) (Outcome d.states)}
    (h : d.Lived options scope b m registry s run)
    (h' : d.Lived options' scope' b m registry s' run') :
    (Run.result run).map Outcome.unflagged = (Run.result run').map Outcome.unflagged ∧
      (Run.final run).toEngine.Alike (Run.final run').toEngine := by
  have hregistry := h.registry.trans h'.registry.symm
  rcases h.ends with ⟨e, hcorrelate, hresult, hstore, happ⟩ | ⟨id, hcorrelate, hends⟩
  all_goals
    rcases h'.ends with ⟨e', hcorrelate', hresult', hstore', happ'⟩ | ⟨id', hcorrelate', hends'⟩
    all_goals cases hcorrelate.symm.trans hcorrelate'
  · refine ⟨by rw [hresult, hresult'], fun key => ?_, ?_, ?_, hregistry, ?_⟩
    · rw [hstore, hstore', halike.states]
    · rw [hstore, hstore', halike.outbox]
    · rw [hstore, hstore', halike.options]
    · rw [happ, happ', halike.app]
  · have hupshot := hends.upshot
    have hupshot' := hends'.upshot
    rw [upshot_congr hscope, ← halike.states, ← halike.app] at hupshot'
    exact hupshot.alike hregistry halike hupshot'

include hd

/-- Live dispatches from alike engines take the same course and leave the engines alike, whatever
they do about rows that an ignored message leaves unchanged. -/
lemma dispatch_alike (options options' : DispatchOptions) (m : M) :
    d.SameCourse options options' scope scope' m s s' ∧
      (Run.final (d.dispatch options scope m s)).toEngine.Alike
        (Run.final (d.dispatch options' scope' m s')).toEngine := by
  have hservices' : scope'.services.Complete := by rw [hscope]; exact hservices
  have hfetched := Registry.blueprint_congr d (Message.type m) halike.registry
  rcases dispatch_live options hservices hd hs.registry hs.session hs.live with
    ⟨e, hfetch, hrun⟩ | ⟨b, registry, log, horigin, hfetch, hb, -, hlived⟩
  all_goals
    rcases dispatch_live options' hservices' hd hs'.registry hs'.session hs'.live with
      ⟨e', hfetch', hrun'⟩ | ⟨b', registry', log', horigin', hfetch', -, -, hlived'⟩
    all_goals
      rw [hfetch, hfetch'] at hfetched
      cases hfetched
  · have hnone : ∀ {scope : Scope σ M} {s : Delivery σ M} {index action},
        Registry.blueprint d (Message.type m) s = .error e s →
          ¬ d.StartsFrom scope m s index action := by
      rintro scope s index action hfetch ⟨_, _, _, hok, _⟩
      cases hfetch.symm.trans hok
    refine ⟨⟨by rw [hrun, hrun']; rfl, fun index action => ?_⟩, by rw [hrun, hrun']; exact halike⟩
    exact iff_of_false (hnone hfetch) (hnone hfetch')
  · have hactions := startsFrom_iff hservices hscope hs hs' halike (hb m) hfetch hfetch'
    have hregistry : s.registry = s'.registry := halike.registry
    rw [← hregistry] at horigin'
    cases horigin.unique horigin'
    obtain ⟨hresult, hend⟩ := hlived.alike hscope halike hlived'
    exact ⟨⟨hresult, hactions⟩, hend⟩

end Twins

end Definition

end Saga
