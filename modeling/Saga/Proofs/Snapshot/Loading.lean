import Saga.Program
import Saga.Proofs.Json.Bytes
import Saga.Proofs.Script.Laws
import Saga.Proofs.Snapshot.RoundTrip

/-!
# What a load comes to

Reading a snapshot looks at its two files and changes nothing (`Snapshot.read_cases`). Rows that are
read are those of the data file (`Snapshot.parse_of_decode`). Where reading fails, the load is
refused: no store is given anything, and a program that begins with it stops with the store that it
had (`Snapshot.refused_of_read`).
-/

namespace Saga

namespace Snapshot

variable {path : String} {disk : Disk} {rows : List StoredInstance}

/-! ## Reading -/

/-- Reading ends in the disk that it began with, whatever it answers. -/
lemma read_cases (path : String) (disk : Disk) :
    (∃ rows, read path disk = .ok rows disk) ∨ ∃ e, read path disk = .error e disk := by
  rw [read_eq]
  split
  · exact .inr ⟨_, rfl⟩
  · split
    · exact .inr ⟨_, rfl⟩
    · split
      · exact .inl ⟨_, rfl⟩
      · exact .inr ⟨_, rfl⟩

/-- Only the files matter for what is read. -/
lemma read_error_of_files {e : StoreError} {other : Disk} (h : read path disk = .error e disk)
    (hfiles : other.files = disk.files) : read path other = .error e other := by
  rw [read_eq] at h ⊢
  rw [hfiles]
  split at h
  · cases h
    rfl
  · split at h
    · cases h
      rfl
    · split at h
      · cases h
      · cases h
        rfl

/-- The sidecar is read first, then the data is checked against it, and only then are the rows read.
Their number is checked in the end. -/
lemma decode_eq (path : String) (bytes beside : List UInt8) :
    decode path bytes beside =
      match parse SnapshotMeta.ofJson beside with
      | .error e => .error e
      | .ok m =>
        let actual := Checksum.hex (Checksum.crc32c bytes)
        if actual = m.checksum then
          match parse (Json.asList StoredInstance.ofJson) bytes with
          | .error e => .error e
          | .ok rows =>
            if rows.length = m.instanceCount then .ok rows
            else .error (.corruption
              s!"snapshot {path} holds {rows.length} instances, metadata says {m.instanceCount}")
        else .error (.corruption
          s!"snapshot {path} checksum mismatch: expected {m.checksum}, got {actual}") := by
  unfold decode
  cases parse SnapshotMeta.ofJson beside with
  | error e => rfl
  | ok m =>
    by_cases hsum : Checksum.hex (Checksum.crc32c bytes) = m.checksum
    · cases parse (Json.asList StoredInstance.ofJson) bytes with
      | error e => simp [bind, Except.bind, hsum]
      | ok rows =>
        by_cases hcount : rows.length = m.instanceCount
        all_goals
          simp [bind, Except.bind, hsum, hcount]
          rfl
    · simp [bind, Except.bind, hsum]
      rfl

/-- Rows that are read are those of the data. -/
lemma parse_of_decode {bytes beside : List UInt8} (h : decode path bytes beside = .ok rows) :
    parse (Json.asList StoredInstance.ofJson) bytes = .ok rows := by
  rw [decode_eq] at h
  cases hside : parse SnapshotMeta.ofJson beside with
  | error e =>
    rw [hside] at h
    cases h
  | ok m =>
    simp only [hside] at h
    split at h
    · cases hdata : parse (Json.asList StoredInstance.ofJson) bytes with
      | error e =>
        rw [hdata] at h
        cases h
      | ok found =>
        simp only [hdata] at h
        split at h
        · exact congrArg _ (Except.ok.inj h)
        · cases h
    · cases h

/-! ## Refusals -/

/-- Whether a load is refused with an error, by a store and by a program that begins with it. -/
structure Refused (path : String) (disk : Disk) (e : StoreError) : Prop where
  read : read path disk = .error e disk
  load : ∀ s : Store, s.loadSnapshot path disk = .error e disk
  stops : ∀ p : Program.Process, p.files = disk.files → p.files.contains path = true →
    Run.result (Program.restore path p) = .error (.store e)
  store : ∀ p : Program.Process, p.files = disk.files →
    (Run.final (Program.restore path p)).host.engine.store = p.host.engine.store

/-- A load fails as its reading does, and changes nothing. -/
lemma loadSnapshot_error {s : Store} {e : StoreError} (h : read path disk = .error e disk) :
    s.loadSnapshot path disk = .error e disk :=
  EStateM.bind_of_error h

/-- A program that has nothing to begin with goes on, and one that may not load it stops. -/
lemma restore_run {p : Program.Process} {e : StoreError}
    (h : read path ⟨p.files, p.host.engine.log⟩ = .error e ⟨p.files, p.host.engine.log⟩) :
    (Run.final (Program.restore path p)).host.engine.store = p.host.engine.store ∧
      (p.files.contains path = true →
        Run.result (Program.restore path p) = .error (.store e)) := by
  have hget : ∀ f : Program.Process → Program.Job Unit, (get >>= f) p = f p p := fun _ => rfl
  unfold Program.restore
  rw [hget]
  cases hthere : p.files.contains path with
  | false => exact ⟨rfl, nofun⟩
  | true =>
    have hload :
        Program.onDisk (p.host.engine.store.loadSnapshot path) p = .error (.store e) p := by
      unfold Program.onDisk
      rw [loadSnapshot_error h]
    simp only [if_true]
    rw [hget, EStateM.bind_of_error hload]
    exact ⟨rfl, fun _ => rfl⟩

/-- A load is refused where reading fails. -/
lemma refused_of_read {e : StoreError} (h : read path disk = .error e disk) :
    Refused path disk e where
  read := h
  load _ := loadSnapshot_error h
  stops _ hfiles := (restore_run (read_error_of_files h hfiles)).2
  store _ hfiles := (restore_run (read_error_of_files h hfiles)).1

/-- The data of rows are the bytes of their characters, one after the other. -/
lemma data_eq (rows : List StoredInstance) :
    data rows = (Json.prettyChars 0 (.arr (rows.map StoredInstance.toJson))).flatMap
      String.utf8EncodeChar :=
  Utf8.encode_ofList _

namespace Loading

/-- What saving rows leaves on a disk that was empty. -/
def saved (rows : List StoredInstance) : Disk := Run.final (write "rows" rows 3 {})

/-- Writing to an empty disk leaves the two files there. -/
lemma write_eq (rows : List StoredInstance) :
    write "rows" rows 3 {} = .ok (describe rows.length (data rows) 3) (saved rows) := rfl

end Loading

end Snapshot

end Saga
