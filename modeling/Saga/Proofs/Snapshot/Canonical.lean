import Saga.Proofs.Snapshot.RoundTrip
import Saga.Proofs.Storage.Mapping
import Saga.Proofs.Text.Order

/-!
# One listing for one table

Rows are listed in the byte order of their keys (`InstanceKey.Before`), which is strict because the
rows stand under their own keys. A sorted list without repeats is told by its members, so the order
in which a table gives out its rows does not matter for the listing
(`Store.mergeSort_eq_instances`), and neither do the calls that made the table: whatever rows were
added, updated or restored, equal tables have the same listing and are saved in the same bytes
(`Chronicle.listing_canonical`).
-/

namespace Saga

/-- Whether a key comes before another by the bytes of its correlation id, and by those of its
definition where the ids are the same. -/
def InstanceKey.Before (a b : InstanceKey) : Prop :=
  Utf8.encode a.correlationId < Utf8.encode b.correlationId ∨
    a.correlationId = b.correlationId ∧ Utf8.encode a.definition < Utf8.encode b.definition

/-- The order of listings is the order of keys, without equal ones. -/
lemma InstanceKey.before_iff {a b : InstanceKey} : a.Before b ↔ a.le b = true ∧ a ≠ b := by
  have hstrict : ∀ {s t : String}, s < t ↔ s ≤ t ∧ s ≠ t := by
    intro s t
    constructor
    · intro h
      exact ⟨String.not_lt.1 (String.lt_asymm h), String.ne_of_lt h⟩
    · rintro ⟨hle, hne⟩
      by_contra hnot
      exact hne (String.le_antisymm hle (String.not_lt.1 hnot))
  obtain ⟨id, definition⟩ := a
  obtain ⟨id', definition'⟩ := b
  rw [Before, le_iff, Utf8.encode_lt_iff, Utf8.encode_lt_iff]
  simp only [ne_eq, mk.injEq]
  constructor
  · rintro (hlt | ⟨rfl, hlt⟩)
    · exact ⟨.inl hlt, fun h => String.ne_of_lt hlt h.1⟩
    · have ⟨hle, hne⟩ := hstrict.1 hlt
      exact ⟨.inr ⟨rfl, hle⟩, fun h => hne h.2⟩
  · rintro ⟨hlt | ⟨rfl, hle⟩, hne⟩
    · exact .inl hlt
    · exact .inr ⟨rfl, hstrict.2 ⟨hle, fun h => hne ⟨rfl, h⟩⟩⟩

namespace Store

variable {s t : Store}

/-- Rows are listed in strictly ascending order. -/
lemma pairwise_before_instances (s : Store) :
    s.instances.Pairwise fun a b => a.record.key.Before b.record.key := by
  refine ((pairwise_instances s).and (nodup_instances s)).imp_of_mem ?_
  rintro a b ha hb ⟨hle, hne⟩
  refine InstanceKey.before_iff.2 ⟨hle, fun hkey => hne ?_⟩
  rw [mem_instances] at ha hb
  rw [hkey, hb] at ha
  exact (Option.some.inj ha).symm

/-- The rows come out in one order, whatever order they are given out in. -/
lemma mergeSort_eq_instances {rows : List StoredInstance} (h : rows.Perm s.table.toList) :
    (rows.mergeSort fun a b => a.record.key.le b.record.key) = s.instances := by
  have hperm : (rows.mergeSort fun a b => a.record.key.le b.record.key).Perm s.instances :=
    (List.mergeSort_perm _ _).trans (h.trans (List.mergeSort_perm _ _).symm)
  refine hperm.eq_of_pairwise ?_ ?_ (pairwise_instances s)
  · intro a b ha hb hab hba
    have hkey := InstanceKey.le_antisymm hab hba
    have ha' := mem_instances.1 (hperm.mem_iff.1 ha)
    rw [hkey, mem_instances.1 hb] at ha'
    exact (Option.some.inj ha').symm
  · apply List.pairwise_mergeSort
    · intro a b c
      exact InstanceKey.le_trans
    · intro a b
      exact InstanceKey.le_total a.record.key b.record.key

/-- Stores with the same rows are saved in the same bytes. Their sidecars differ in the time
alone. -/
lemma saveSnapshot_eq (h : ∀ key, s.get? key = t.get? key) {path path' : String} {disk disk' : Disk}
    (now now' : Timestamp) (hkeeps : disk.files.Keeps path) (hkeeps' : disk'.files.Keeps path') :
    ∃ m saved saved' bytes, s.saveSnapshot path now disk = .ok m saved ∧
      t.saveSnapshot path' now' disk' = .ok { m with createdAt := now' } saved' ∧
      m = Snapshot.describe s.instances.length bytes now ∧
      saved.files.read path = .ok bytes ∧ saved'.files.read path' = .ok bytes := by
  obtain ⟨saved, hsave, hdata, -, -⟩ := Snapshot.write_ok s.instances now hkeeps
  obtain ⟨saved', hsave', hdata', -, -⟩ := Snapshot.write_ok s.instances now' hkeeps'
  refine ⟨_, saved, saved', _, hsave, ?_, rfl, hdata, hdata'⟩
  rw [saveSnapshot, ← instances_eq h]
  exact hsave'

end Store

namespace Chronicle

variable {ι : Type} [DecidableEq ι]

/-- After any calls the table is the map that they make, in which every row stands under its own
key, and its rows are listed once each in strictly ascending order of their keys. Calls that end in
an equal table have the same listing, which is saved in the same bytes. -/
theorem listing_canonical (start : Store) (calls : List (Call ι)) :
    let c := (opened start).run calls
    let s := c.storage.store
    s.table.rows = c.past.rows start.table.rows ∧
      (∀ key row, (c.past.rows start.table.rows).get? key = some row → row.record.key = key) ∧
      (∀ row, row ∈ s.instances ↔
        ∃ key, (c.past.rows start.table.rows).get? key = some row) ∧
      s.instances.Nodup ∧
      s.instances.Pairwise (fun a b => a.record.key.Before b.record.key) ∧
      (∀ rows : List StoredInstance, rows.Perm s.table.toList →
        (rows.mergeSort fun a b => a.record.key.le b.record.key) = s.instances) ∧
      ∀ (start' : Store) (calls' : List (Call ι)),
        let s' := ((opened start').run calls').storage.store
        (∀ key, s.table.rows.get? key = s'.table.rows.get? key) →
          s.instances = s'.instances ∧
          ∀ path path' now now' (disk disk' : Disk),
            disk.files.Keeps path → disk'.files.Keeps path' →
              ∃ m saved saved' bytes,
                s.saveSnapshot path now disk = .ok m saved ∧
                s'.saveSnapshot path' now' disk' = .ok { m with createdAt := now' } saved' ∧
                m = Snapshot.describe s.instances.length bytes now ∧
                saved.files.read path = .ok bytes ∧ saved'.files.read path' = .ok bytes := by
  intro c s
  have hrows : s.table.rows = c.past.rows start.table.rows := rows_run start calls
  have hown : (c.past.rows start.table.rows).Own := start.table.own.history c.past
  refine ⟨hrows, hown, ?members, Store.nodup_instances s, Store.pairwise_before_instances s,
    fun rows => Store.mergeSort_eq_instances, ?histories⟩
  case members =>
    intro row
    rw [Store.mem_instances, Store.get?, InstanceTable.get?, hrows]
    constructor
    · intro h
      exact ⟨_, h⟩
    · rintro ⟨key, h⟩
      rwa [hown key row h]
  case histories =>
    intro start' calls' s' hequal
    refine ⟨Store.instances_eq hequal, fun path path' now now' disk disk' hkeeps hkeeps' => ?_⟩
    exact Store.saveSnapshot_eq hequal now now' hkeeps hkeeps'

namespace Relisting

/-- The key of a row by its correlation id. -/
def key (id : String) : InstanceKey := ⟨id, "orders"⟩

/-- A row that was added at a time. -/
def row (id : String) (now : Timestamp) : StoredInstance := Store.added now (.fresh (key id) 0)

/-- Two sessions that add a row each, the later one first, and one that updates the first row. -/
def written : List (Call Nat) :=
  [.stage 1 (.add (.fresh (key "b") 0)), .commit 1 false 2, .stage 0 (.add (.fresh (key "a") 0)),
    .commit 0 false 1, .stage 2 (.update ⟨key "a", 3, 1⟩), .commit 2 false 7]

/-- The same rows put in by a list that has an older row under the key of one of them. -/
def restored : List (Call Nat) :=
  [.restore [row "a" 9, row "b" 2, (row "a" 1).advanced 7 3]]

/-- Makes calls on a store without rows. -/
def made (calls : List (Call Nat)) : Store := ((opened {}).run calls).storage.store

/-- The written rows are stored in the order in which they were added. -/
theorem entries_written : (made written).table.rows.entries =
    [(key "b", row "b" 2), (key "a", (row "a" 1).advanced 7 3)] := by decide +kernel

/-- The restored rows are stored in the order of the list, the last one under each key. -/
theorem entries_restored : (made restored).table.rows.entries =
    [(key "a", (row "a" 1).advanced 7 3), (key "b", row "b" 2)] := by decide +kernel

/-- Stores that hold the same rows in different orders list them in one order, and their snapshots
have the same bytes. -/
theorem written_and_restored :
    (made written).table.toList ≠ (made restored).table.toList ∧
      (made written).instances = (made restored).instances ∧
      ∃ m saved saved' bytes, (made written).saveSnapshot "one" 20 {} = .ok m saved ∧
        (made restored).saveSnapshot "two" 30 {} = .ok { m with createdAt := 30 } saved' ∧
        saved.files.read "one" = .ok bytes ∧ saved'.files.read "two" = .ok bytes := by
  have hequal : ∀ key,
      (made written).table.rows.get? key = (made restored).table.rows.get? key := by
    intro other
    rw [Keyed.get?, Keyed.get?, entries_written, entries_restored]
    by_cases ha : key "a" = other <;> by_cases hb : key "b" = other <;>
      simp [Keyed.lookup, ha, hb]
    exact absurd (ha.trans hb.symm) (by decide)
  obtain ⟨-, -, -, -, -, -, hhistories⟩ := listing_canonical {} written
  obtain ⟨hinstances, hsave⟩ := hhistories {} restored hequal
  obtain ⟨m, saved, saved', bytes, hone, htwo, -, hdata, hdata'⟩ :=
    hsave "one" "two" 20 30 {} {} ⟨_, rfl⟩ ⟨_, rfl⟩
  refine ⟨?_, hinstances, m, saved, saved', bytes, hone, htwo, hdata, hdata'⟩
  rw [InstanceTable.toList, InstanceTable.toList, Keyed.values, Keyed.values, entries_written,
    entries_restored]
  decide

end Relisting

end Chronicle

end Saga
