import Saga.Proofs.Interleaving.Turns

/-!
# The trail of a row

The tasks that commit a write to one row, in the order of their commits, form a trail: each of them
moves the row on from where the one before it has left it (`Trail`). Along a trail the version
counts the tasks, and only where there was no row at first does a task start one, the first of the
trail.
-/

namespace Saga

variable {σ M : Type} [Message M]

/-- Whether the result of a task is certain and moves the row under a key as given. -/
def Task.Advances (t : Task σ M) (key : InstanceKey) (before : Option StoredInstance)
    (row : StoredInstance) : Prop :=
  ∃ outcome, t.verdict? = some (.ok outcome) ∧ t.toErrand.Concerns key ∧
    t.toErrand.Advances key outcome before row

/-- Whether tasks, given by their numbers, move the row under a key one after the other from `start`
to the last index. -/
inductive Trail (tasks : List (Task σ M)) (key : InstanceKey) (start : Option StoredInstance) :
    List Nat → Option StoredInstance → Prop where
  | nil : Trail tasks key start [] start
  | snoc {writers before i t row} :
    Trail tasks key start writers before → tasks[i]? = some t → t.Advances key before row →
    Trail tasks key start (writers ++ [i]) (some row)

/-- Whether an outcome is that of a startup rule. -/
def Outcome.IsStarted {S : StateSet} (outcome : Outcome S) : Prop :=
  ∃ id state, outcome = .started id state

namespace Errand

variable {e : Errand σ M} {key : InstanceKey} {outcome : Outcome e.definition.states}
  {before : Option StoredInstance} {row : StoredInstance}

/-- An outcome that moves a row is one with a write. -/
lemma Advances.writes (h : e.Advances key outcome before row) : outcome.writes = true := by
  cases h <;> rfl

/-- A row is started where there was none. -/
lemma Advances.isStarted_iff (h : e.Advances key outcome before row) :
    outcome.IsStarted ↔ before = none := by
  cases h with
  | started _ => exact ⟨fun _ => rfl, fun _ => ⟨_, _, rfl⟩⟩
  | transferred _ _ =>
    constructor
    · rintro ⟨id, state, hstarted⟩
      cases hstarted
    · nofun
  | kept _ _ _ =>
    constructor
    · rintro ⟨id, state, hstarted⟩
      cases hstarted
    · nofun

/-- The version goes up by one. -/
lemma Advances.version (h : e.Advances key outcome before row) :
    row.record.version = (before.map fun r => r.record.version).getD 0 + 1 := by
  cases h <;> rfl

end Errand

namespace Trail

variable {tasks tasks' : List (Task σ M)} {key : InstanceKey} {start last : Option StoredInstance}
  {writers : List Nat}

/-- A trail stays one when its tasks keep what they have done. -/
lemma mono (h : Trail tasks key start writers last)
    (hkeep : ∀ (i : Nat) (t : Task σ M), tasks[i]? = some t →
      ∃ t' : Task σ M, tasks'[i]? = some t' ∧
        ∀ key before row, t.Advances key before row → t'.Advances key before row) :
    Trail tasks' key start writers last := by
  induction h with
  | nil => exact .nil
  | snoc _ hget hadvances ih =>
    obtain ⟨t', hget', hkept⟩ := hkeep _ _ hget
    exact .snoc ih hget' (hkept _ _ _ hadvances)

/-- There is no row at the end only if there was none at first and nobody has written. -/
lemma last_eq_none (h : Trail tasks key start writers last) :
    last = none ↔ writers = [] ∧ start = none := by
  cases h with
  | nil => simp
  | snoc _ _ _ => simp

/-- Along a trail the version counts the tasks. -/
lemma version (h : Trail tasks key start writers last) :
    (last.map fun r => r.record.version).getD 0 =
      (start.map fun r => r.record.version).getD 0 + writers.length := by
  induction h with
  | nil => rfl
  | snoc _ _ hadvances ih =>
    obtain ⟨outcome, -, -, hadvances⟩ := hadvances
    have hversion := hadvances.version
    simp only [Option.map_some, Option.getD_some, List.length_append, List.length_singleton]
    omega

/-- Each task of a trail has moved its row, and has started it if it is the first and there was no
row. -/
lemma task (h : Trail tasks key start writers last) {n i : Nat} (hi : writers[n]? = some i) :
    ∃ t outcome, tasks[i]? = some t ∧ t.verdict? = some (.ok outcome) ∧
      t.toErrand.Concerns key ∧ outcome.writes = true ∧
      (outcome.IsStarted ↔ n = 0 ∧ start = none) := by
  induction h with
  | nil => cases hi
  | @snoc writers before j t row htrail hget hadvances ih =>
    rw [List.getElem?_append] at hi
    split at hi
    · exact ih hi
    · next hlength =>
      have hn : n = writers.length := by
        have hbound : n - writers.length < 1 := by
          simpa using (List.getElem?_eq_some_iff.1 hi).1
        omega
      subst hn
      have hij : j = i := by simpa using hi
      subst hij
      obtain ⟨outcome, hverdict, hconcerns, hadvances⟩ := hadvances
      refine ⟨t, outcome, hget, hverdict, hconcerns, hadvances.writes, ?_⟩
      rw [hadvances.isStarted_iff, htrail.last_eq_none, List.length_eq_zero_iff]

end Trail

end Saga
