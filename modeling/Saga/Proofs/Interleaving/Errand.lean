import Saga.Dispatch
import Saga.Proofs.Storage.Landing

/-!
# What a dispatch earns

An `Errand` is a message on its way to the instances of a definition. From what it found under its
key it earns one write and the outcome that goes with it (`Earned`), unless there is nothing for it
to write (`Spared`). What it found may be outdated
by the time of the commit, but a record that was read recalls its row for as long as the version is
the same (`Store.Recalls`), and only then does the store take the write. So the row moves from the
state it is really in, to the next version (`Earned.lands`).
-/

namespace Saga

/-- A message on its way to the instances of a definition. -/
structure Errand (σ M : Type) where
  definition : Definition σ M
  options : DispatchOptions
  blueprint : Blueprint σ M definition.states
  message : M

namespace Store

/-- Whether the row of a record that was read is still there: at a later version, or as it was. -/
def Recalls (s : Store) (r : InstanceRecord) : Prop :=
  ∃ row, s.get? r.key = some row ∧ r.version ≤ row.record.version ∧
    (r.version = row.record.version → row.record = r)

/-- Whether what was found under a key is recalled. That nothing was found need not last. -/
def Knows (s : Store) (key : InstanceKey) : Option InstanceRecord → Prop
  | none => True
  | some r => r.key = key ∧ s.Recalls r

variable {s before after : Store} {key : InstanceKey}

/-- What is found is known. -/
lemma knows_get? (s : Store) (key : InstanceKey) :
    s.Knows key ((s.get? key).map StoredInstance.record) := by
  cases hrow : s.get? key with
  | none => trivial
  | some row =>
    have hkey : row.record.key = key := InstanceTable.key_of_get? hrow
    refine ⟨hkey, row, ?_, Nat.le_refl _, fun _ => rfl⟩
    rw [hkey, hrow]

/-- The record that was found under a key has that key. -/
lemma Knows.record_key {found : Option InstanceRecord} (h : s.Knows key found) :
    ∀ record, found = some record → record.key = key := by
  rintro record rfl
  exact h.1

/-- A record stays recalled when a row moves on to a later version. -/
lemma Recalls.of_landed {r : InstanceRecord} {row : StoredInstance} {messages : List Envelope}
    (h : before.Recalls r) (hlanded : Landed before after row messages)
    (hmoved : ∀ old, before.get? row.record.key = some old →
      old.record.version < row.record.version) : after.Recalls r := by
  obtain ⟨old, hold, hle, hsame⟩ := h
  by_cases hkey : r.key = row.record.key
  -- The row itself has moved on: it is later than the record, so nothing is said of its content.
  · rw [hkey] at hold
    have hlt : old.record.version < row.record.version := hmoved old hold
    refine ⟨row, ?_, by omega, ?_⟩
    · rw [hkey]
      exact hlanded.here
    · intro hversion
      omega
  · refine ⟨old, ?_, hle, hsame⟩
    rw [hlanded.elsewhere r.key hkey]
    exact hold

/-- What was found stays known to a store that recalls what the other one recalled. -/
lemma Knows.mono {found : Option InstanceRecord} (h : before.Knows key found)
    (hrecalls : ∀ r, before.Recalls r → after.Recalls r) : after.Knows key found := by
  cases found with
  | none => trivial
  | some r => exact ⟨h.1, hrecalls r h.2⟩

end Store

namespace Errand

variable {σ M : Type} [Message M] {e : Errand σ M} {key : InstanceKey}

/-- Whether the message belongs to the instance under a key. -/
def Concerns (e : Errand σ M) (key : InstanceKey) : Prop :=
  e.blueprint.correlate e.message = .ok key.correlationId ∧ key.definition = e.definition.id.name

/-- The write that a dispatch stages after it has found something, and the outcome it has then. -/
inductive Earned (e : Errand σ M) (key : InstanceKey) :
    Option InstanceRecord → StagedWrite → Outcome e.definition.states → Prop where
  | started {rule} :
    e.blueprint.starts.get? (Message.type e.message) = some rule →
    Earned e key none (.add (.fresh key rule.target.ordinal))
      (.started key.correlationId rule.target)
  | transferred {record state rule} :
    e.definition.states.ofOrdinal? record.state = some state →
    e.blueprint.transfers.get? (state, Message.type e.message) = some rule →
    Earned e key (some record) (.update (record.withState (rule.target.getD state).ordinal))
      (.transferred key.correlationId state (rule.target.getD state))
  | kept {record state} :
    e.definition.states.ofOrdinal? record.state = some state →
    e.blueprint.transfers.get? (state, Message.type e.message) = none →
    e.options.persistUnchanged = true →
    Earned e key (some record) (.update (record.withState state.ordinal))
      (.ignored key.correlationId state true)

/-- The outcome without a write that a dispatch has after it has found something. -/
inductive Spared (e : Errand σ M) (key : InstanceKey) :
    Option InstanceRecord → Outcome e.definition.states → Prop where
  | dropped :
    e.blueprint.starts.get? (Message.type e.message) = none →
    Spared e key none (.dropped key.correlationId)
  | ignored {record state} :
    e.definition.states.ofOrdinal? record.state = some state →
    e.blueprint.transfers.get? (state, Message.type e.message) = none →
    e.options.persistUnchanged = false →
    Spared e key (some record) (.ignored key.correlationId state false)

/-- How a dispatch with a given outcome moves the row under its key: from what was there before to
the next version, by the rule that is there for it. -/
inductive Advances (e : Errand σ M) (key : InstanceKey) :
    Outcome e.definition.states → Option StoredInstance → StoredInstance → Prop where
  | started {rule now} :
    e.blueprint.starts.get? (Message.type e.message) = some rule →
    Advances e key (.started key.correlationId rule.target) none
      ⟨⟨key, rule.target.ordinal, 1⟩, now, now⟩
  | transferred {row state rule now} :
    e.definition.states.ofOrdinal? row.record.state = some state →
    e.blueprint.transfers.get? (state, Message.type e.message) = some rule →
    Advances e key (.transferred key.correlationId state (rule.target.getD state)) (some row)
      ⟨⟨key, (rule.target.getD state).ordinal, row.record.version + 1⟩, row.createdAt, now⟩
  | kept {row state now} :
    e.definition.states.ofOrdinal? row.record.state = some state →
    e.blueprint.transfers.get? (state, Message.type e.message) = none →
    e.options.persistUnchanged = true →
    Advances e key (.ignored key.correlationId state true) (some row)
      ⟨⟨key, state.ordinal, row.record.version + 1⟩, row.createdAt, now⟩

/-- A write is about the row under the key of its dispatch. -/
lemma Earned.record_key {found : Option InstanceRecord} {write : StagedWrite}
    {outcome : Outcome e.definition.states} (h : e.Earned key found write outcome)
    (hfound : ∀ record, found = some record → record.key = key) : write.record.key = key := by
  cases h with
  | started _ => rfl
  | @transferred record _ _ _ _ => exact hfound record rfl
  | @kept record _ _ _ _ => exact hfound record rfl

/-- The outcome of a write writes. -/
lemma Earned.writes {found : Option InstanceRecord} {write : StagedWrite}
    {outcome : Outcome e.definition.states} (h : e.Earned key found write outcome) :
    outcome.writes = true := by
  cases h <;> rfl

/-- A write that was earned and that the store takes brings the row under the key to a later
version, whether or not versions count, and leaves all others as they are. -/
lemma Earned.raises {s after : Store} {found : Option InstanceRecord} {write : StagedWrite}
    {outcome : Outcome e.definition.states} {now : Timestamp} {messages : List Envelope}
    (h : e.Earned key found write outcome) (hknows : s.Knows key found)
    (hcommit : s.commit now [write] messages = .ok after) :
    ∃ row, row.record.key = key ∧ Store.Landed s after row messages ∧
      ∀ old, s.get? key = some old → old.record.version < row.record.version := by
  have hkey := h.record_key hknows.record_key
  cases write with
  | add record =>
    obtain ⟨hnone, hlanded⟩ := Store.Landed.of_add hcommit
    refine ⟨_, hkey, hlanded, ?_⟩
    intro old hold
    rw [← hkey] at hold
    cases hnone.symm.trans hold
  | update record =>
    obtain ⟨row, hrow, -, hlanded⟩ := Store.Landed.of_update hcommit
    have hrowKey : row.record.key = record.key := InstanceTable.key_of_get? hrow
    refine ⟨row.advanced now record.state, hrowKey.trans hkey, hlanded, ?_⟩
    intro old hold
    rw [← hkey] at hold
    cases hrow.symm.trans hold
    exact Nat.lt_succ_self _

/-- An update that the store takes from a record it knows moves the row on from that very record. -/
lemma update_lands {s after : Store} {record : InstanceRecord} {ordinal : Int32} {now : Timestamp}
    {messages : List Envelope} (hknows : s.Knows key (some record))
    (hoptimistic : s.options.optimisticConcurrency = true)
    (hcommit : s.commit now [.update (record.withState ordinal)] messages = .ok after) :
    ∃ row, s.get? key = some row ∧ row.record = record ∧
      Store.Landed s after ⟨⟨key, ordinal, row.record.version + 1⟩, row.createdAt, now⟩
        messages := by
  obtain ⟨hkey, row, hrow, -, hsame⟩ := hknows
  obtain ⟨row', hrow', hversion, hlanded⟩ := Store.Landed.of_update hcommit
  cases hrow.symm.trans hrow'
  -- The store has compared the versions, and at the same version the row is the one that was read.
  have hrecord : row.record = record := hsame (hversion hoptimistic).symm
  refine ⟨row, ?_, hrecord, ?_⟩
  · rw [← hkey]
    exact hrow
  · have hrowKey : row.record.key = key := by rw [hrecord, hkey]
    simpa [StoredInstance.advanced, InstanceRecord.withState, hrowKey] using hlanded

/-- A write that was earned and that the store takes moves the row under the key on, and no other.
-/
lemma Earned.lands {s after : Store} {found : Option InstanceRecord} {write : StagedWrite}
    {outcome : Outcome e.definition.states} {now : Timestamp} {messages : List Envelope}
    (h : e.Earned key found write outcome) (hknows : s.Knows key found)
    (hoptimistic : s.options.optimisticConcurrency = true)
    (hcommit : s.commit now [write] messages = .ok after) :
    ∃ row, row.record.key = key ∧ Store.Landed s after row messages ∧
      e.Advances key outcome (s.get? key) row ∧
      ∀ old, s.get? key = some old → old.record.version < row.record.version := by
  cases h with
  | @started rule hrule =>
    obtain ⟨hnone, hlanded⟩ := Store.Landed.of_add hcommit
    refine ⟨_, rfl, hlanded, ?_, ?_⟩
    · have hnone' : s.get? key = none := hnone
      rw [hnone']
      exact .started hrule
    · intro old hold
      cases hnone.symm.trans hold
  | @transferred record state rule hstate hrule =>
    obtain ⟨row, hrow, rfl, hlanded⟩ := update_lands hknows hoptimistic hcommit
    refine ⟨_, rfl, hlanded, ?_, ?_⟩
    · rw [hrow]
      exact .transferred hstate hrule
    · intro old hold
      cases hrow.symm.trans hold
      exact Nat.lt_succ_self _
  | @kept record state hstate hrule hpersist =>
    obtain ⟨row, hrow, rfl, hlanded⟩ := update_lands hknows hoptimistic hcommit
    refine ⟨_, rfl, hlanded, ?_, ?_⟩
    · rw [hrow]
      exact .kept hstate hrule hpersist
    · intro old hold
      cases hrow.symm.trans hold
      exact Nat.lt_succ_self _

end Errand

end Saga
