import Mathlib.Tactic.Lemma
import Saga.Store

/-!
# The listing of the rows

The order of keys is total (`InstanceKey.le_antisymm`), so a store lists each of its rows once and
in one way only: stores with the same rows have the same listing (`instances_eq`). Of the rows that
are restored the last one under each key counts (`get?_restore`), and restoring a listing brings
back the rows that were listed (`get?_restore_instances`).
-/

namespace Saga

namespace InstanceKey

/-- Keys are ordered by their correlation ids, and then by their definitions. -/
lemma le_iff {a b : InstanceKey} :
    a.le b = true ↔ a.correlationId < b.correlationId ∨
      a.correlationId = b.correlationId ∧ a.definition ≤ b.definition := by
  simp [le]

/-- Any two keys are ordered. -/
lemma le_total (a b : InstanceKey) : (a.le b || b.le a) = true := by
  rw [Bool.or_eq_true, le_iff, le_iff]
  by_cases hlt : a.correlationId < b.correlationId
  · exact .inl (.inl hlt)
  by_cases hgt : b.correlationId < a.correlationId
  · exact .inr (.inl hgt)
  have heq := String.le_antisymm (String.not_lt.1 hgt) (String.not_lt.1 hlt)
  rcases String.le_total a.definition b.definition with hle | hle
  · exact .inl (.inr ⟨heq, hle⟩)
  · exact .inr (.inr ⟨heq.symm, hle⟩)

/-- The order of keys is transitive. -/
lemma le_trans {a b c : InstanceKey} (hab : a.le b = true) (hbc : b.le c = true) :
    a.le c = true := by
  rw [le_iff] at *
  rcases hab with hab | ⟨hab, hab'⟩
  · rcases hbc with hbc | ⟨hbc, -⟩
    · exact .inl (String.lt_trans hab hbc)
    · exact .inl (hbc ▸ hab)
  · rcases hbc with hbc | ⟨hbc, hbc'⟩
    · exact .inl (hab ▸ hbc)
    · exact .inr ⟨hab.trans hbc, String.le_trans hab' hbc'⟩

/-- Keys that are each before the other are equal. -/
lemma le_antisymm {a b : InstanceKey} (hab : a.le b = true) (hba : b.le a = true) : a = b := by
  rw [le_iff] at *
  rcases hab with hab | ⟨hid, hab⟩
  · rcases hba with hba | ⟨hba, -⟩
    · exact absurd (String.lt_trans hab hba) (String.lt_irrefl _)
    · exact absurd (hba ▸ hab) (String.lt_irrefl _)
  · rcases hba with hba | ⟨-, hba⟩
    · exact absurd (hid ▸ hba) (String.lt_irrefl _)
    · obtain ⟨_, _⟩ := a
      obtain ⟨_, _⟩ := b
      rw [mk.injEq]
      exact ⟨hid, String.le_antisymm hab hba⟩

end InstanceKey

namespace InstanceTable

/-- A table lists the rows that are found in it. -/
lemma mem_toList {t : InstanceTable} {row : StoredInstance} :
    row ∈ t.toList ↔ t.get? row.record.key = some row := by
  rw [get?, Keyed.get?_eq_some_iff]
  constructor
  · intro hmem
    obtain ⟨⟨key, row'⟩, hentry, rfl⟩ := List.mem_map.1 hmem
    rw [t.keyed key row' ((Keyed.get?_eq_some_iff _ _ _).2 hentry)]
    exact hentry
  · intro hentry
    exact List.mem_map.2 ⟨_, hentry, rfl⟩

/-- Each row is listed once. -/
lemma nodup_toList (t : InstanceTable) : t.toList.Nodup := by
  have hkeys : t.toList.map (fun row => row.record.key) = t.rows.entries.map Prod.fst := by
    unfold toList Keyed.values
    rw [List.map_map]
    apply List.map_congr_left
    intro e he
    exact t.keyed e.1 e.2 ((Keyed.get?_eq_some_iff _ _ _).2 he)
  have hnodup := t.rows.nodup
  rw [← hkeys] at hnodup
  exact List.Pairwise.of_map _ (fun _ _ hne heq => hne (heq ▸ rfl)) hnodup

/-- Of several rows under one key the last one counts. -/
lemma get?_ofList (rows : List StoredInstance) (key : InstanceKey) :
    (ofList rows).get? key = rows.reverse.find? fun row => row.record.key = key := by
  have hfold : ∀ t : InstanceTable, (rows.foldl put t).get? key =
      (rows.reverse.find? fun row => row.record.key = key).or (t.get? key) := by
    induction rows with
    | nil => exact fun t => rfl
    | cons row rest ih =>
      intro t
      rw [List.foldl_cons, ih, get?_put, List.reverse_cons, List.find?_append, Option.or_assoc]
      by_cases hkey : row.record.key = key <;> simp [hkey]
  exact (hfold empty).trans (by simp)

end InstanceTable

namespace Store

variable {s t : Store} {row : StoredInstance} {key : InstanceKey}

/-- A store lists the rows that are found in it. -/
lemma mem_instances : row ∈ s.instances ↔ s.get? row.record.key = some row :=
  List.mem_mergeSort.trans InstanceTable.mem_toList

/-- A store lists no row twice. -/
lemma nodup_instances (s : Store) : s.instances.Nodup :=
  (List.mergeSort_perm _ _).nodup_iff.2 (InstanceTable.nodup_toList s.table)

/-- A store lists its rows in the order of their keys. -/
lemma pairwise_instances (s : Store) :
    s.instances.Pairwise fun a b => a.record.key.le b.record.key = true := by
  unfold instances
  apply List.pairwise_mergeSort
  · intro a b c
    exact InstanceKey.le_trans
  · intro a b
    exact InstanceKey.le_total a.record.key b.record.key

/-- A store lists as many rows as it counts. -/
lemma length_instances (s : Store) : s.instances.length = s.instanceCount := by
  unfold instances
  rw [List.length_mergeSort]
  exact List.length_map _

/-- Stores with the same rows list them in the same way. -/
lemma instances_eq (h : ∀ key, s.get? key = t.get? key) : s.instances = t.instances := by
  have hperm : s.instances.Perm t.instances := by
    rw [List.perm_ext_iff_of_nodup (nodup_instances s) (nodup_instances t)]
    intro row
    rw [mem_instances, mem_instances, h]
  refine hperm.eq_of_pairwise ?_ (pairwise_instances s) (pairwise_instances t)
  intro a b ha hb hab hba
  have hkey := InstanceKey.le_antisymm hab hba
  rw [mem_instances, h, hkey] at ha
  exact Option.some.inj (ha.symm.trans (mem_instances.1 hb))

/-- A restored store has under a key the last of the rows with that key. -/
lemma get?_restore (s : Store) (rows : List StoredInstance) (key : InstanceKey) :
    (s.restore rows).get? key = rows.reverse.find? fun row => row.record.key = key :=
  InstanceTable.get?_ofList rows key

/-- Restoring what a store lists brings back its rows, whatever rows there were before. -/
lemma get?_restore_instances (s other : Store) (key : InstanceKey) :
    (other.restore s.instances).get? key = s.get? key := by
  rw [get?_restore]
  cases hrow : s.get? key with
  | none =>
    rw [List.find?_eq_none]
    intro row hmem hkey
    rw [List.mem_reverse, mem_instances, of_decide_eq_true hkey, hrow] at hmem
    cases hmem
  | some row =>
    have hkey : row.record.key = key := InstanceTable.key_of_get? hrow
    cases hfound : s.instances.reverse.find? fun row => row.record.key = key with
    | none =>
      have hmem : row ∈ s.instances.reverse := by
        rw [List.mem_reverse, mem_instances, hkey]
        exact hrow
      exact absurd (decide_eq_true hkey) (List.find?_eq_none.1 hfound row hmem)
    | some found =>
      have hmem := List.mem_of_find?_eq_some hfound
      have hfound' : found.record.key = key := by simpa using List.find?_some hfound
      rw [List.mem_reverse, mem_instances, hfound', hrow] at hmem
      exact hmem.symm

end Store

end Saga
