import Saga.Proofs.Dispatch.Algorithm
import Saga.Proofs.Dispatch.Cancellation
import Saga.Proofs.Interleaving.Settings
import Saga.Proofs.StateSet

/-!
# What a live dispatch comes to

A dispatch whose actions only send fails before it has looked anything up, or it ends as prescribed
(`Definition.dispatch_live`). What is prescribed depends on the state in the row but not on its
version or its times: the result up to the flag of an ignored message, the state of the application,
the messages, and the state in the row afterwards are the `Definition.upshot` of the dispatch.
-/

namespace Saga

variable {σ M : Type}

namespace Request.OnlySends

variable {r : Request M}

/-- A request that only sends cancels nothing. -/
lemma leavesLive (h : r.OnlySends) : r.LeavesLive := by
  cases r with
  | cancel | forward _ _ => exact h.elim
  | _ => trivial

/-- A request that only sends neither commits nor forwards. -/
lemma staysInside (h : r.OnlySends) : r.StaysInside := by
  cases r with
  | commit | forward _ _ => exact h.elim
  | _ => trivial

end Request.OnlySends

/-- The ordinal in the row under a key. -/
def Store.state? (s : Store) (key : InstanceKey) : Option Int32 :=
  (s.get? key).map fun row => row.record.state

/-- A commit of one row puts its state under its key and leaves the other states. -/
lemma Store.Landed.state? {before after : Store} {row : StoredInstance} {messages : List Envelope}
    (h : Store.Landed before after row messages) (key : InstanceKey) :
    after.state? key =
      if key = row.record.key then some row.record.state else before.state? key := by
  unfold Store.state?
  split
  · next heq =>
    rw [heq, h.here]
    rfl
  · next hne => rw [h.elsewhere key hne]

/-- The outcome without the flag that tells whether an ignored message had its row written back. -/
def Outcome.unflagged {S : StateSet} : Outcome S → Outcome S
  | ignored id state _ => ignored id state false
  | outcome => outcome

/-- The summary of an outcome does not show the flag. -/
lemma Outcome.summary_unflagged {S : StateSet} (outcome : Outcome S) :
    outcome.unflagged.summary = outcome.summary := by
  cases outcome <;> rfl

/-- What a dispatch comes to, apart from versions and times. -/
structure Upshot (S : StateSet) (σ : Type) where
  result : Except EngineError (Outcome S)
  app : σ
  messages : List Envelope
  /-- The ordinal in the row in the end. -/
  state : Option Int32

variable [Message M]

/-- The upshot of a live dispatch to a key with this ordinal in its row. -/
def Definition.upshot (d : Definition σ M) (scope : Scope σ M) (b : Blueprint σ M d.states) (m : M)
    (key : InstanceKey) (app : σ) : Option Int32 → Upshot d.states σ
  | none =>
    match b.starts.get? (Message.type m) with
    | none => ⟨.ok (.dropped key.correlationId), app, [], none⟩
    | some rule =>
      match b.emit scope m rule.actions app with
      | ⟨.ok (), x, messages⟩ =>
        ⟨.ok (.started key.correlationId rule.target), x, messages, some rule.target.ordinal⟩
      | ⟨.error e, x, _⟩ => ⟨.error e, x, [], none⟩
  | some ordinal =>
    match d.states.ofOrdinal? ordinal with
    | none => ⟨.error (.unknownStateOrdinal d.id.name ordinal), app, [], some ordinal⟩
    | some state =>
      match b.transfers.get? (state, Message.type m) with
      | none => ⟨.ok (.ignored key.correlationId state false), app, [], some ordinal⟩
      | some rule =>
        match b.emit scope m rule.actions app with
        | ⟨.ok (), x, messages⟩ =>
          ⟨.ok (.transferred key.correlationId state (rule.target.getD state)), x, messages,
            some (rule.target.getD state).ordinal⟩
        | ⟨.error e, x, _⟩ => ⟨.error e, x, [], some ordinal⟩

/-- Whether an upshot is what became of a result, a state of the application and a store. -/
structure Upshot.Holds {S : StateSet} (u : Upshot S σ) (key : InstanceKey) (before : Store)
    (result : Except EngineError (Outcome S)) (app : σ) (after : Store) : Prop where
  result : result.map Outcome.unflagged = u.result
  app : app = u.app
  outbox : after.outbox = before.outbox ++ u.messages
  options : after.options = before.options
  states : ∀ other, after.state? other = if other = key then u.state else before.state? other

/-- What leaves the store as it was. -/
lemma Upshot.Holds.of_unchanged {S : StateSet} {u : Upshot S σ} {key : InstanceKey} {before : Store}
    {result : Except EngineError (Outcome S)} {app : σ}
    (hresult : result.map Outcome.unflagged = u.result) (happ : app = u.app)
    (hmessages : u.messages = []) (hstate : u.state = before.state? key) :
    u.Holds key before result app before where
  result := hresult
  app := happ
  outbox := by rw [hmessages, List.append_nil]
  options := rfl
  states other := by
    split
    · next heq => rw [heq, hstate]
    · rfl

/-- What has one row landed. -/
lemma Upshot.Holds.of_landed {S : StateSet} {u : Upshot S σ} {key : InstanceKey}
    {before after : Store} {result : Except EngineError (Outcome S)} {app : σ}
    {row : StoredInstance} {messages : List Envelope}
    (hlanded : Store.Landed before after row messages) (hkey : row.record.key = key)
    (hresult : result.map Outcome.unflagged = u.result) (happ : app = u.app)
    (hmessages : u.messages = messages) (hstate : u.state = some row.record.state) :
    u.Holds key before result app after where
  result := hresult
  app := happ
  outbox := by rw [hmessages, hlanded.outbox]
  options := hlanded.options
  states other := by rw [hlanded.state?, hkey, hstate]

/-- The correlation id is what the selector of the message gives, unless that is blank. -/
lemma Blueprint.correlate_eq_ok_iff {S : StateSet} {b : Blueprint σ M S} {m : M} {id : String} :
    b.correlate m = .ok id ↔
      ∃ select, b.selectors.get? (Message.type m) = some select ∧ isBlank (select m) = false ∧
        select m = id := by
  unfold Blueprint.correlate
  cases b.selectors.get? (Message.type m) with
  | none => simp
  | some select =>
    cases hblank : isBlank (select m) <;> simp [hblank]

namespace Definition
open Script

variable {d : Definition σ M} {options : DispatchOptions} {scope : Scope σ M}
  {b : Blueprint σ M d.states} {m : M} {key : InstanceKey}

/-- Without an action that sends a dispatch comes to no messages. -/
lemma upshot_messages_of_silent (hb : b.Only (fun r => r.sent = []) m) (app : σ)
    (state : Option Int32) : (d.upshot scope b m key app state).messages = [] := by
  have hemit : ∀ actions, (∀ action ∈ actions, b.Triggers m action) →
      (b.emit scope m actions app).messages = [] := by
    intro actions hactions
    rw [Blueprint.emit, ← emission_runActions]
    apply emission_messages_of_silent
    refine runActions_only (p := fun r => r.sent = []) rfl _ _ m 0 ?_
    exact fun action hmem => hb action (hactions action hmem)
  cases state with
  | none =>
    cases hrule : b.starts.get? (Message.type m) with
    | none => simp only [upshot, hrule]
    | some rule =>
      have hnone := hemit rule.actions fun action hmem => .inl ⟨rule, hrule, hmem⟩
      simp only [upshot, hrule]
      generalize b.emit scope m rule.actions app = emission at hnone ⊢
      obtain ⟨_ | _, x, messages⟩ := emission
      · rfl
      · exact hnone
  | some ordinal =>
    cases hstate : d.states.ofOrdinal? ordinal with
    | none => simp only [upshot, hstate]
    | some current =>
      cases hrule : b.transfers.get? (current, Message.type m) with
      | none => simp only [upshot, hstate, hrule]
      | some rule =>
        have hnone := hemit rule.actions fun action hmem => .inr ⟨current, rule, hrule, hmem⟩
        simp only [upshot, hstate, hrule]
        generalize b.emit scope m rule.actions app = emission at hnone ⊢
        obtain ⟨_ | _, x, messages⟩ := emission
        · rfl
        · exact hnone

/-- A dispatch that ends as prescribed comes to its upshot. -/
lemma Prescribes.upshot {now : Timestamp} {app x : σ} {before after : Store}
    {result : Except EngineError (Outcome d.states)}
    (h : d.Prescribes options scope b m key now app before result x after) :
    (d.upshot scope b m key app (before.state? key)).Holds key before result x after := by
  cases h with
  | started hrow hrule hemit hlanded =>
    simp only [Store.state?, hrow, Option.map_none, Definition.upshot, hrule, hemit]
    exact .of_landed hlanded rfl rfl rfl rfl rfl
  | startFailed hrow hrule hemit =>
    simp only [Store.state?, hrow, Option.map_none, Definition.upshot, hrule, hemit]
    exact .of_unchanged rfl rfl rfl (by simp [Store.state?, hrow])
  | dropped hrow hrule =>
    simp only [Store.state?, hrow, Option.map_none, Definition.upshot, hrule]
    exact .of_unchanged rfl rfl rfl (by simp [Store.state?, hrow])
  | unknown hrow hstate =>
    simp only [Store.state?, hrow, Option.map_some, Definition.upshot, hstate]
    exact .of_unchanged rfl rfl rfl (by simp [Store.state?, hrow])
  | transferred hrow hstate hrule hemit hlanded =>
    simp only [Store.state?, hrow, Option.map_some, Definition.upshot, hstate, hrule, hemit]
    exact .of_landed hlanded rfl rfl rfl rfl rfl
  | transferFailed hrow hstate hrule hemit =>
    simp only [Store.state?, hrow, Option.map_some, Definition.upshot, hstate, hrule, hemit]
    exact .of_unchanged rfl rfl rfl (by simp [Store.state?, hrow])
  | kept hrow hstate hrule _ hlanded =>
    simp only [Store.state?, hrow, Option.map_some, Definition.upshot, hstate, hrule]
    exact .of_landed hlanded rfl rfl rfl rfl (by rw [StateSet.ordinal_of_ofOrdinal? hstate])
  | ignored hrow hstate hrule _ =>
    simp only [Store.state?, hrow, Option.map_some, Definition.upshot, hstate, hrule]
    exact .of_unchanged rfl rfl rfl (by simp [Store.state?, hrow])

/-- Without its correlation id nothing is located. -/
lemma locate_of_uncorrelated {e : EngineError} (h : b.correlate m = .error e) (s : Delivery σ M) :
    (d.locate b m).run scope s = .error e s := by
  unfold locate
  rw [h]
  rfl

/-- What follows the look-up cancels nothing, if the actions only send. -/
lemma rest_leavesLive (hb : b.Only Request.OnlySends m) (found : Option InstanceRecord)
    (key : InstanceKey) :
    ((d.react options b key m found).bind d.conclude).Only Request.LeavesLive := by
  refine Only.bind ?_ conclude_leavesLive
  cases hmatching : d.matching? b m found with
  | none => exact react_leavesLive options key hmatching
  | some actions =>
    obtain ⟨write, outcome, hreact⟩ := react_of_matching options key hmatching
    rw [hreact]
    refine (runActions_only trivial _ _ m 0 ?_).bind fun _ => staging_leavesLive write outcome
    intro action hmem
    exact (hb action (triggers_of_matching hmatching hmem)).mono
      fun _ => Request.OnlySends.leavesLive

/-- Without an action that cancels or forwards the script of a dispatch does neither. -/
lemma script_leavesLive (hb : b.Only Request.OnlySends m) :
    (d.script options b m).Only Request.LeavesLive :=
  (locate_only (fun _ => trivial) (fun _ => trivial) trivial).bind fun located =>
    rest_leavesLive hb located.2 located.1

/-- What a dispatch leaves besides its result, the store and the application, and how these come
about: nothing was looked up, or the dispatch ended as prescribed. -/
structure Lived (d : Definition σ M) (options : DispatchOptions) (scope : Scope σ M)
    (b : Blueprint σ M d.states) (m : M) (registry : Registry σ M) (s : Delivery σ M)
    (run : EStateM.Result EngineError (Delivery σ M) (Outcome d.states)) : Prop where
  registry : (Run.final run).registry = registry
  live : (Run.final run).cancelled = false
  ends : (∃ e, b.correlate m = .error e ∧ Run.result run = .error e ∧
      (Run.final run).store = s.store ∧ (Run.final run).app = s.app) ∨
    ∃ id, b.correlate m = .ok id ∧
      d.EndsAsPrescribed options scope b m ⟨id, d.id.name⟩ s.toEngine run

/-- A live dispatch in a fresh session whose actions only send has no blueprint and changes nothing,
or it has one and keeps it; without a correlation id nothing else happens, and with one it ends as
prescribed. -/
lemma dispatch_live (options : DispatchOptions) (hservices : scope.services.Complete)
    (hd : d.RulesOnly Request.OnlySends)
    {s : Delivery σ M} (hregistry : s.registry.Only Request.OnlySends) (hsession : s.session = {})
    (hlive : s.cancelled = false) :
    (∃ e, Registry.blueprint d (Message.type m) s = .error e s ∧
        d.dispatch options scope m s = .error e s) ∨
      ∃ b registry log, Registry.Origin d (Message.type m) s.registry b registry ∧
        Registry.blueprint d (Message.type m) s = .ok b { s with registry, log } ∧
        (∀ m, b.Only Request.OnlySends m) ∧ registry.Only Request.OnlySends ∧
        d.Lived options scope b m registry s (d.dispatch options scope m s) := by
  rw [dispatch_apply]
  rcases Registry.blueprint_cases d (Message.type m) s with
    ⟨e, hfetch⟩ | ⟨b, registry, log, hfetch, horigin⟩
  · exact .inl ⟨e, hfetch, by rw [hfetch]⟩
  obtain ⟨hb, hregistry'⟩ := hregistry.of_origin hd horigin
  refine .inr ⟨b, registry, log, horigin, hfetch, hb, hregistry', ?_⟩
  rw [hfetch]
  let fetched : Delivery σ M := { s with registry, log }
  show d.Lived options scope b m registry s ((d.script options b m).run scope fetched)
  have hinside : b.Only Request.StaysInside m :=
    (hb m).weaken fun _ => Request.OnlySends.staysInside
  have hkept : (Run.final ((d.script options b m).run scope fetched)).registry = registry :=
    script_registry hservices.ofSession hinside fetched
  cases hcorrelate : b.correlate m with
  | error e =>
    have hrun : (d.script options b m).run scope fetched = .error e fetched := by
      rw [script_eq, run_bind, locate_of_uncorrelated hcorrelate]
    rw [hrun]
    exact ⟨rfl, hlive, .inl ⟨e, hcorrelate, rfl, rfl, rfl⟩⟩
  | ok id =>
    let key : InstanceKey := ⟨id, d.id.name⟩
    have hlocate : (d.locate b m).run scope fetched =
        .ok (key, (s.store.get? key).map StoredInstance.record) fetched := by
      obtain ⟨select, hselect, hid, rfl⟩ := Blueprint.correlate_eq_ok_iff.1 hcorrelate
      have hread : s.session.read s.store key =
          (s.store.get? key).map StoredInstance.record := by
        rw [hsession]
        rfl
      rw [← hread]
      exact locate_run_of_live (s := fetched) hservices hselect hid hlive
    have hrun : (d.script options b m).run scope fetched = ((d.react options b key m
        ((s.store.get? key).map StoredInstance.record)).bind d.conclude).run scope fetched := by
      rw [script_eq, run_bind, hlocate]
    refine ⟨hkept, ?_, .inr ⟨id, hcorrelate, ?_⟩⟩
    · rw [hrun, (rest_leavesLive (hb m) _ key).run_cancelled hservices.ofSession]
      exact hlive
    · rw [hrun]
      show d.EndsAsPrescribed options scope b m key fetched.toEngine _
      cases hrow : s.store.get? key with
      | none => exact begin_prescribed (s := fetched) hservices (hb m) hsession hlive hrow
      | some row => exact moveOn_prescribed (s := fetched) hservices (hb m) hsession hlive hrow

end Definition

end Saga
