import Saga.Proofs.Dispatch.Settling
import Saga.Proofs.Dispatch.Telling

/-!
# Partitions

A dispatch reads and writes one row, which is in the partition of its definition. So the rows of the
other partitions stay as they are (`Definition.dispatch_elsewhere`). And from stores that agree on
its own partition the dispatch of a telling definition has the same result, posts the same messages
and leaves stores that agree on it, whatever else is in them (`Definition.dispatch_agrees`).
-/

namespace Saga

variable {σ M : Type}

namespace Store

/-- The record in the row under a key. -/
def record? (s : Store) (key : InstanceKey) : Option InstanceRecord :=
  (s.get? key).map StoredInstance.record

/-- Whether stores keep the same records in a partition. -/
def AgreeOn (name : String) (s s' : Store) : Prop :=
  ∀ key : InstanceKey, key.definition = name → s.record? key = s'.record? key

namespace AgreeOn

variable {name : String} {s s' s'' : Store}

/-- A store agrees with itself. -/
lemma refl (s : Store) : AgreeOn name s s := fun _ _ => rfl

/-- Agreement goes both ways. -/
lemma symm (h : AgreeOn name s s') : AgreeOn name s' s := fun key hkey => (h key hkey).symm

/-- Agreement passes on from store to store. -/
lemma trans (h : AgreeOn name s s') (h' : AgreeOn name s' s'') : AgreeOn name s s'' :=
  fun key hkey => (h key hkey).trans (h' key hkey)

end AgreeOn

/-- The state under a key is that of the record under it. -/
lemma state?_eq (s : Store) (key : InstanceKey) :
    s.state? key = (s.record? key).map InstanceRecord.state := by
  unfold state? record?
  rw [Option.map_map]
  rfl

/-- A commit of one row puts its record under its key and leaves the other records. -/
lemma Landed.record? {before after : Store} {row : StoredInstance} {messages : List Envelope}
    (h : Store.Landed before after row messages) (key : InstanceKey) :
    after.record? key =
      if key = row.record.key then some row.record else before.record? key := by
  unfold Store.record?
  split
  · next heq =>
    rw [heq, h.here]
    rfl
  · next hne => rw [h.elsewhere key hne]

end Store

namespace Outcome

variable {S : StateSet}

/-- The outcome with the flag that dispatches with these options give an ignored message. -/
def flagged (options : DispatchOptions) : Outcome S → Outcome S
  | ignored id state _ => ignored id state options.persistUnchanged
  | outcome => outcome

/-- The record that a result leaves under its key, where there was one or none before. -/
def left? (key : InstanceKey) (found : Option InstanceRecord) :
    Except EngineError (Outcome S) → Option InstanceRecord
  | .ok (started _ state) => some ⟨key, state.ordinal, 1⟩
  | .ok (transferred _ _ state) => found.map fun record => ⟨key, state.ordinal, record.version + 1⟩
  | .ok (ignored _ state true) => found.map fun record => ⟨key, state.ordinal, record.version + 1⟩
  | .ok (ignored _ _ false) => found
  | .ok (dropped _) => found
  | .error _ => found

end Outcome

variable [Message M]

namespace Definition

variable {d : Definition σ M} {options : DispatchOptions} {scope : Scope σ M}
  {b : Blueprint σ M d.states} {m : M} {key : InstanceKey}

namespace Prescribes

variable {now : Timestamp} {app x : σ} {before after : Store}
  {result : Except EngineError (Outcome d.states)}

/-- What is prescribed is the result of the upshot, with the flag that the options tell. -/
lemma result_eq (h : d.Prescribes options scope b m key now app before result x after) :
    result =
      (d.upshot scope b m key app (before.state? key)).result.map (Outcome.flagged options) := by
  cases h with
  | started hrow hrule hemit _ | startFailed hrow hrule hemit =>
    simp only [Store.state?, hrow, Option.map_none, Definition.upshot, hrule, hemit]
    rfl
  | dropped hrow hrule =>
    simp only [Store.state?, hrow, Option.map_none, Definition.upshot, hrule]
    rfl
  | unknown hrow hstate =>
    simp only [Store.state?, hrow, Option.map_some, Definition.upshot, hstate]
    rfl
  | transferred hrow hstate hrule hemit _ | transferFailed hrow hstate hrule hemit =>
    simp only [Store.state?, hrow, Option.map_some, Definition.upshot, hstate, hrule, hemit]
    rfl
  | kept hrow hstate hrule hpersist _ | ignored hrow hstate hrule hpersist =>
    simp only [Store.state?, hrow, Option.map_some, Definition.upshot, hstate, hrule]
    show _ = Except.ok (Outcome.ignored _ _ options.persistUnchanged)
    rw [hpersist]

/-- The record under the key goes by the result and by the record before. -/
lemma record?_eq (h : d.Prescribes options scope b m key now app before result x after) :
    after.record? key = Outcome.left? key (before.record? key) result := by
  have hfound : ∀ {row : StoredInstance}, before.get? key = some row →
      before.record? key = some row.record := by
    intro row hrow
    rw [Store.record?, hrow]
    rfl
  cases h with
  | started _ _ _ hlanded => rw [hlanded.record?, if_pos rfl]; rfl
  | transferred hrow _ _ _ hlanded => rw [hlanded.record?, if_pos rfl, hfound hrow]; rfl
  | kept hrow _ _ _ hlanded => rw [hlanded.record?, if_pos rfl, hfound hrow]; rfl
  | _ => rfl

/-- The records under other keys stay. -/
lemma elsewhere (h : d.Prescribes options scope b m key now app before result x after)
    {other : InstanceKey} (hne : other ≠ key) : after.record? other = before.record? other := by
  cases h with
  | started _ _ _ hlanded => rw [hlanded.record?, if_neg hne]
  | transferred _ _ _ _ hlanded => rw [hlanded.record?, if_neg hne]
  | kept _ _ _ _ hlanded => rw [hlanded.record?, if_neg hne]
  | _ => rfl

end Prescribes

/-- Whether a delivery is ready for the messages of a definition. -/
structure Served (d : Definition σ M) (s : Delivery σ M) : Prop where
  live : s.cancelled = false
  sends : s.registry.Only Request.OnlySends
  faithful : s.registry.Faithful d

section Dispatch

variable {s s' : Delivery σ M} (hservices : scope.services.Complete) (hd : d.Tells)
  (hcompile : d.compile = .ok b) (hs : d.Served s) (hs' : d.Served s')
  (hsession : s.session = {}) (hsession' : s'.session = {})

include hservices hd hcompile hs hsession

/-- A dispatch leaves the rows of other partitions alone, and takes nothing out of the outbox. -/
lemma dispatch_elsewhere (options : DispatchOptions) (m : M) :
    let after := (Run.final (d.dispatch options scope m s)).store
    (∀ key : InstanceKey, key.definition ≠ d.id.name → after.record? key = s.store.record? key) ∧
      ∃ messages, after.outbox = s.store.outbox ++ messages := by
  obtain ⟨_, -, -, hlived⟩ := dispatch_lived options hservices hd.sends hcompile m hs.faithful
    hs.sends hsession hs.live
  rcases hlived.ends with ⟨e, -, -, hstore, -⟩ | ⟨id, -, hends⟩
  · rw [hstore]
    exact ⟨fun _ _ => rfl, [], (List.append_nil _).symm⟩
  · refine ⟨fun key hkey => hends.elsewhere ?_, _, hends.upshot.outbox⟩
    rintro rfl
    exact hkey rfl

include hs' hsession'

/-- From stores that agree on its partition a dispatch comes to the same in it, and posts the same.
-/
lemma dispatch_agrees (hagree : Store.AgreeOn d.id.name s.store s'.store)
    (options : DispatchOptions) (m : M) :
    let run := d.dispatch options scope m s
    let run' := d.dispatch options scope m s'
    Run.result run = Run.result run' ∧
      Store.AgreeOn d.id.name (Run.final run).store (Run.final run').store ∧
      ∃ messages, (Run.final run).store.outbox = s.store.outbox ++ messages ∧
        (Run.final run').store.outbox = s'.store.outbox ++ messages := by
  intro run run'
  have hdetached : b.Every Script.Detached m :=
    Blueprint.Every.of_compile (fun rule hrule run hrun => (hd rule hrule run hrun m).detached)
      hcompile
  obtain ⟨_, -, -, hlived⟩ := dispatch_lived options hservices hd.sends hcompile m hs.faithful
    hs.sends hsession hs.live
  obtain ⟨_, -, -, hlived'⟩ := dispatch_lived options hservices hd.sends hcompile m hs'.faithful
    hs'.sends hsession' hs'.live
  rcases hlived.ends with ⟨e, he, hresult, hstore, -⟩ | ⟨id, hid, hends⟩
  · rcases hlived'.ends with ⟨e', he', hresult', hstore', -⟩ | ⟨id', hid', -⟩
    · cases he.symm.trans he'
      refine ⟨hresult.trans hresult'.symm, ?_, [], ?_, ?_⟩
      · rw [hstore, hstore']
        exact hagree
      · rw [hstore, List.append_nil]
      · rw [hstore', List.append_nil]
    · cases he.symm.trans hid'
  · rcases hlived'.ends with ⟨e', he', -⟩ | ⟨id', hid', hends'⟩
    · cases hid.symm.trans he'
    · cases hid.symm.trans hid'
      let key : InstanceKey := ⟨id, d.id.name⟩
      have hrecord : s.store.record? key = s'.store.record? key := hagree key rfl
      have hstate : s.store.state? key = s'.store.state? key := by
        rw [Store.state?_eq, Store.state?_eq, hrecord]
      -- What the dispatch comes to goes by the state in the row and not by the application.
      obtain ⟨hresult, hmessages, -⟩ :=
        upshot_app scope hdetached key s.app s'.app (s.store.state? key)
      have hsame : Run.result run = Run.result run' := by
        rw [hends.result_eq, hends'.result_eq]
        show Except.map _ (d.upshot scope b m key s.app (s.store.state? key)).result =
          Except.map _ (d.upshot scope b m key s'.app (s'.store.state? key)).result
        rw [hresult, hstate]
      refine ⟨hsame, fun other hother => ?_, _, hends.upshot.outbox, ?_⟩
      · by_cases hkey : other = key
        · subst hkey
          rw [hends.record?_eq, hends'.record?_eq, hsame, hrecord]
        · rw [hends.elsewhere hkey, hends'.elsewhere hkey, hagree other hother]
      · rw [hends'.upshot.outbox]
        show _ ++ (d.upshot scope b m key s'.app (s'.store.state? key)).messages =
          _ ++ (d.upshot scope b m key s.app (s.store.state? key)).messages
        rw [hmessages, hstate]

end Dispatch

end Definition

end Saga
