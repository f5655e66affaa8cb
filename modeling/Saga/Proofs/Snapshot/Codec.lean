import Saga.Proofs.Json.Grammar
import Saga.Snapshot

/-!
# Reading back what was written

A reader is the inverse of a writer on a value if it reads what was written as that value
(`ReadsBack`). The readers of keys, records, rows and sidecars read back every value whose numbers
are 64-bit words, lists are read back item by item, and what is read back as JSON is read back from
the bytes of a file (`parse_encode_pretty`).
-/

namespace Saga

namespace Json

/-- Whether what is written for a value is all of it, and read as that value. -/
structure ReadsBack {α : Type} (write : α → Json) (read : Json → Except Fault α) (a : α) :
    Prop where
  exact : Exact (write a)
  read : read (write a) = .ok a

section Numbers

/-- An integer of 32 bits is read back. -/
lemma asInt32_toInt (n : Int32) : asInt32 (.int n.toInt) = .ok n := by
  have hbounds : Int32.minValue.toInt ≤ n.toInt ∧ n.toInt ≤ Int32.maxValue.toInt :=
    ⟨n.minValue_le_toInt, n.toInt_le⟩
  rw [asInt32, if_pos hbounds, Int32.ofInt_toInt]

/-- An integer of 64 bits is read back. -/
lemma asInt64_toInt (n : Int64) : asInt64 (.int n.toInt) = .ok n := by
  have hbounds : Int64.minValue.toInt ≤ n.toInt ∧ n.toInt ≤ Int64.maxValue.toInt :=
    ⟨n.minValue_le_toInt, n.toInt_le⟩
  rw [asInt64, if_pos hbounds, Int64.ofInt_toInt]

/-- A number below its bound is read back. -/
lemma asNat_natCast {bound n : Nat} (h : n < bound) : asNat bound (.int n) = .ok n :=
  if_pos h

/-- An integer of 32 bits can be written. -/
lemma isWord_int32 (n : Int32) : IsWord n.toInt := by
  have hlow := n.le_toInt
  have hhigh := n.toInt_lt
  unfold IsWord
  omega

/-- An integer of 64 bits can be written. -/
lemma isWord_int64 (n : Int64) : IsWord n.toInt := by
  have hlow := n.le_toInt
  have hhigh := n.toInt_lt
  unfold IsWord
  omega

/-- A number below the bound of words can be written. -/
lemma isWord_natCast {n : Nat} (h : n < wordBound) : IsWord n := by
  unfold IsWord
  simp [wordBound, UInt64.size] at h
  omega

end Numbers

/-- A list is read back if its items are. -/
lemma ReadsBack.asList {α : Type} {write : α → Json} {read : Json → Except Fault α} {as : List α}
    (h : ∀ a ∈ as, ReadsBack write read a) :
    ReadsBack (fun as => .arr (as.map write)) (asList read) as := by
  induction as with
  | nil => exact ⟨trivial, rfl⟩
  | cons a as ih =>
    obtain ⟨hexact, hread⟩ := h a List.mem_cons_self
    obtain ⟨hexacts, hreads⟩ := ih fun b hb => h b (List.mem_cons_of_mem _ hb)
    simp only [Json.asList] at hreads
    refine ⟨⟨hexact, hexacts⟩, ?_⟩
    simp only [Json.asList, List.map_cons, List.mapM_cons, hread, hreads]
    rfl

end Json

open Json (ReadsBack)

/-- A key is read back. -/
lemma InstanceKey.readsBack (key : InstanceKey) : ReadsBack toJson ofJson key where
  exact := ⟨trivial, trivial, trivial⟩
  read := rfl

/-- A record is read back if its version is a word. -/
lemma InstanceRecord.readsBack {r : InstanceRecord} (h : r.version < wordBound) :
    ReadsBack toJson ofJson r where
  exact := ⟨r.key.readsBack.exact, Json.isWord_int32 r.state, Json.isWord_natCast h, trivial⟩
  read := by
    show (do
      let key ← InstanceKey.ofJson r.key.toJson
      let state ← Json.asInt32 (.int r.state.toInt)
      let version ← Json.asNat wordBound (.int r.version)
      pure (⟨key, state, version⟩ : InstanceRecord)) = _
    rw [r.key.readsBack.read, Json.asInt32_toInt, Json.asNat_natCast h]
    rfl

/-- A row is read back if its version is a word. -/
lemma StoredInstance.readsBack {row : StoredInstance} (h : row.record.version < wordBound) :
    ReadsBack toJson ofJson row where
  exact := ⟨(InstanceRecord.readsBack h).exact, Json.isWord_int64 row.createdAt,
    Json.isWord_int64 row.updatedAt, trivial⟩
  read := by
    show (do
      let record ← InstanceRecord.ofJson row.record.toJson
      let createdAt ← Json.asInt64 (.int row.createdAt.toInt)
      let updatedAt ← Json.asInt64 (.int row.updatedAt.toInt)
      pure (⟨record, createdAt, updatedAt⟩ : StoredInstance)) = _
    rw [(InstanceRecord.readsBack h).read, Json.asInt64_toInt, Json.asInt64_toInt]
    rfl

/-- The description of a snapshot is read back if its numbers are words. -/
lemma SnapshotMeta.readsBack {m : SnapshotMeta} (hcount : m.instanceCount < wordBound)
    (hsize : m.sizeBytes < wordBound) : ReadsBack toJson ofJson m where
  exact := ⟨Json.isWord_natCast hcount, Json.isWord_int64 m.createdAt, Json.isWord_natCast hsize,
    trivial, trivial⟩
  read := by
    show (do
      let instanceCount ← Json.asNat wordBound (.int m.instanceCount)
      let createdAt ← Json.asInt64 (.int m.createdAt.toInt)
      let sizeBytes ← Json.asNat wordBound (.int m.sizeBytes)
      pure (⟨instanceCount, createdAt, sizeBytes, m.checksum⟩ : SnapshotMeta)) = _
    rw [Json.asNat_natCast hcount, Json.asInt64_toInt, Json.asNat_natCast hsize]
    rfl

namespace Snapshot

/-- The bytes of a file give back what was written to it. -/
lemma parse_encode_pretty {α : Type} {write : α → Json} {read : Json → Except Json.Fault α} {a : α}
    (h : ReadsBack write read a) : parse read (Utf8.encode (Json.pretty (write a))) = .ok a := by
  have hvalue : Json.ofBytes? (Utf8.encode (Json.pretty (write a))) = some (write a) := by
    unfold Json.ofBytes?
    rw [Utf8.decode?_encode]
    exact Json.parse?_pretty h.exact
  unfold parse
  rw [hvalue]
  simp only [h.read]

end Snapshot

end Saga
