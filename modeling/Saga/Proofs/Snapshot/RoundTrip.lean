import Saga.Proofs.Snapshot.Codec
import Saga.Proofs.Snapshot.Places
import Saga.Proofs.Storage.Listing

/-!
# Saving and loading a store

A tree of files keeps a snapshot at a path if both of its files can be written there
(`Files.Keeps`). Writing fails with an I/O error where they cannot (`Snapshot.write_error`). Where
they can, the rows are read back from the two files (`Snapshot.decode_data`), so any store that
loads them has the rows of the saved one, and saving it again writes the same data
(`Store.saveSnapshot_loadSnapshot`).
-/

namespace Saga

namespace Snapshot

/-! ## The two files -/

section Sizes

/-- A text has at least as many bytes as characters. -/
lemma length_le_utf8ByteSize (cs : List Char) : cs.length ≤ (String.ofList cs).utf8ByteSize := by
  induction cs with
  | nil => exact Nat.zero_le _
  | cons c cs ih =>
    have hsize := String.utf8ByteSize_append (s := String.ofList [c]) (t := String.ofList cs)
    rw [← String.ofList_append, List.singleton_append, ← String.singleton_eq_ofList,
      String.utf8ByteSize_singleton] at hsize
    have hpos := c.utf8Size_pos
    rw [hsize, List.length_cons]
    omega

/-- The text of a list has at least as many characters as the list has items. -/
lemma length_le_prettyItems (level : Nat) (items : List Json) :
    items.length ≤ (Json.prettyItems level items).length := by
  induction items with
  | nil => exact Nat.zero_le _
  | cons v items ih =>
    simp only [Json.prettyItems, List.length_cons, List.length_append]
    omega

/-- A data file has more bytes than rows. -/
lemma length_le_data (rows : List StoredInstance) : rows.length ≤ (data rows).length := by
  have hchars : rows.length ≤
      (Json.prettyChars 0 (.arr (rows.map StoredInstance.toJson))).length := by
    cases rows with
    | nil => exact Nat.zero_le _
    | cons row rows =>
      have hitems := length_le_prettyItems 0 (rows.map StoredInstance.toJson)
      rw [List.length_map] at hitems
      simp only [List.map_cons, Json.prettyChars, List.length_cons, List.length_append]
      omega
  exact Nat.le_trans hchars (length_le_utf8ByteSize _)

end Sizes

variable {path : String} {rows : List StoredInstance}

/-- The sidecar of a snapshot gives back what it says. -/
lemma parse_sidecar (now : Timestamp) (hsize : (data rows).length < wordBound) :
    parse SnapshotMeta.ofJson (sidecar (describe rows.length (data rows) now)) =
      .ok (describe rows.length (data rows) now) :=
  parse_encode_pretty
    (SnapshotMeta.readsBack (Nat.lt_of_le_of_lt (length_le_data rows) hsize) hsize)

/-- The data of a snapshot give back its rows. -/
lemma parse_data (hversions : ∀ row ∈ rows, row.record.version < wordBound) :
    parse (Json.asList StoredInstance.ofJson) (data rows) = .ok rows :=
  parse_encode_pretty (Json.ReadsBack.asList fun row hrow =>
    StoredInstance.readsBack (hversions row hrow))

/-- The two files of a snapshot give back its rows. -/
lemma decode_data (now : Timestamp) (hversions : ∀ row ∈ rows, row.record.version < wordBound)
    (hsize : (data rows).length < wordBound) :
    decode path (data rows) (sidecar (describe rows.length (data rows) now)) = .ok rows := by
  refine Except.bind_eq_ok_iff.2 ⟨_, parse_sidecar now hsize, ?_⟩
  rw [if_neg (by simp [describe])]
  refine Except.bind_eq_ok_iff.2 ⟨_, parse_data hversions, ?_⟩
  rw [if_neg (by simp [describe])]
  rfl

/-- A file is read without changing the disk. -/
lemma readFile_eq (path : String) (disk : Disk) :
    readFile path disk =
      match disk.files.read path with
      | .ok bytes => .ok bytes disk
      | .error fault => .error (.io fault.message) disk := by
  show onFiles (match disk.files.read path with
    | .ok bytes => pure bytes
    | .error fault => throw fault) disk = _
  cases disk.files.read path <;> rfl

/-- Reading needs both files and leaves the disk as it is. -/
lemma read_eq (path : String) (disk : Disk) :
    read path disk =
      match disk.files.read path with
      | .error fault => .error (.io fault.message) disk
      | .ok bytes =>
        match disk.files.read (sidecarPath path) with
        | .error fault => .error (.io fault.message) disk
        | .ok beside =>
          match decode path bytes beside with
          | .ok rows => .ok rows disk
          | .error e => .error e disk := by
  have hdata := readFile_eq path disk
  have hside := readFile_eq (sidecarPath path) disk
  cases hbytes : disk.files.read path with
  | error fault =>
    rw [hbytes] at hdata
    exact EStateM.bind_of_error hdata
  | ok bytes =>
    rw [hbytes] at hdata
    refine (EStateM.bind_of_ok hdata).trans ?_
    simp only
    cases hbeside : disk.files.read (sidecarPath path) with
    | error fault =>
      rw [hbeside] at hside
      exact EStateM.bind_of_error hside
    | ok beside =>
      rw [hbeside] at hside
      refine (EStateM.bind_of_ok hside).trans ?_
      simp only
      cases decode path bytes beside <;> rfl

/-- Two files that fit together are read. -/
lemma read_run {disk : Disk} {bytes beside : List UInt8} (hdata : disk.files.read path = .ok bytes)
    (hside : disk.files.read (sidecarPath path) = .ok beside)
    (hdecode : decode path bytes beside = .ok rows) : read path disk = .ok rows disk := by
  rw [read_eq, hdata, hside]
  simp only [hdecode]

end Snapshot

/-! ## Where snapshots are kept -/

namespace Files

/-- Whether a data file and its sidecar can be written for a path. -/
def Keeps (files : Files) (path : String) : Prop :=
  ∃ later, (do
    makeParents path
    write path []
    write (Snapshot.sidecarPath path) [] : FileRun Unit) files = .ok () later

variable {files later : Files} {path : String} {place place' : List String}

/-- A file that is written anew leaves the places around it as they were. -/
lemma Grows.rewrite (hplace : place ≠ []) (files : Files) (bytes bytes' : List UInt8) :
    Grows (files.put place (.file bytes)) (files.put place (.file bytes')) := by
  refine ⟨rfl, fun {other} hother => ?_, fun {other} hother => ?_⟩
  all_goals
    rw [node?_put hplace] at hother ⊢
    split at hother
    · next heq => simp_all
    · next hne => rwa [if_neg hne]

/-- The place of one file does not depend on what another one holds. -/
lemma placeOfFile_rewrite (hplace : place ≠ []) {bytes : List UInt8}
    (h : placeOfFile path (files.put place (.file bytes)) = .ok place') (bytes' : List UInt8) :
    placeOfFile path (files.put place (.file bytes')) = .ok place' := by
  obtain ⟨p, hp, hnext, hslash, hfree⟩ := placeOfFile_eq_ok_iff.1 h
  have hnext' := (Grows.rewrite hplace files bytes bytes').placeFor hnext
  refine placeOfFile_eq_ok_iff.2 ⟨p, hp, hnext', hslash, fun hdir => hfree ?_⟩
  exact (Grows.rewrite hplace files bytes' bytes).directory hdir

/-- Both files can be written just if each has its place, the sidecar beside any data. -/
lemma keeps_iff :
    files.Keeps path ↔
      ∃ made place place', makeParents path files = .ok () made ∧
        placeOfFile path made = .ok place ∧
        ∀ bytes, placeOfFile (Snapshot.sidecarPath path) (made.put place (.file bytes)) =
          .ok place' := by
  constructor
  · rintro ⟨later, h⟩
    obtain ⟨⟨⟩, made, hmade, hwrites⟩ := EStateM.bind_eq_ok_iff.1 h
    obtain ⟨⟨⟩, kept, hdata, hside⟩ := EStateM.bind_eq_ok_iff.1 hwrites
    obtain ⟨place, hplace, rfl⟩ := write_eq_ok_iff.1 hdata
    obtain ⟨place', hplace', -⟩ := write_eq_ok_iff.1 hside
    have hne := ne_nil_of_node? (node?_of_placeOfFile hplace)
    exact ⟨made, place, place', hmade, hplace, placeOfFile_rewrite hne hplace'⟩
  · rintro ⟨made, place, place', hmade, hplace, hplace'⟩
    have hdata : write path [] made = .ok () _ := write_eq_ok_iff.2 ⟨place, hplace, rfl⟩
    have hside : write (Snapshot.sidecarPath path) [] _ = .ok () _ :=
      write_eq_ok_iff.2 ⟨place', hplace' [], rfl⟩
    exact ⟨_, (EStateM.bind_of_ok hmade).trans ((EStateM.bind_of_ok hdata).trans hside)⟩

section Failures

variable {made kept left : Files} {fault : PathFault} {bytes beside : List UInt8}

/-- A path at which the data could not be written keeps no snapshot. -/
lemma not_keeps_of_write (hmade : makeParents path files = .ok () made)
    (h : write path bytes made = .error fault left) : ¬ files.Keeps path := by
  rw [keeps_iff]
  rintro ⟨made', place, place', hmade', hplace, -⟩
  rw [hmade] at hmade'
  cases hmade'
  rw [write_run, hplace] at h
  cases h

/-- A path at which the sidecar could not be written keeps no snapshot. -/
lemma not_keeps_of_write_sidecar (hmade : makeParents path files = .ok () made)
    (hwrite : write path bytes made = .ok () kept)
    (h : write (Snapshot.sidecarPath path) beside kept = .error fault left) :
    ¬ files.Keeps path := by
  rw [keeps_iff]
  rintro ⟨made', place, place', hmade', hplace, hplace'⟩
  rw [hmade] at hmade'
  cases hmade'
  rw [write_run, hplace] at hwrite
  cases hwrite
  rw [write_run, hplace'] at h
  cases h

end Failures

end Files

namespace Snapshot

variable {path : String} {rows : List StoredInstance} {disk : Disk}

/-- Work on the files of a disk fails for I/O alone. -/
lemma onFiles_run {α : Type} (work : FileRun α) (disk : Disk) :
    onFiles work disk =
      match work disk.files with
      | .ok a files => .ok a { disk with files }
      | .error fault files => .error (.io fault.message) { disk with files } := rfl

/-- Work on the files, and then the rest. -/
lemma onFiles_bind {α β : Type} (work : FileRun α) (rest : α → DiskRun β) (disk : Disk) :
    (onFiles work >>= rest) disk =
      match work disk.files with
      | .ok a files => rest a { disk with files }
      | .error fault files => .error (.io fault.message) { disk with files } := by
  have hwork := onFiles_run work disk
  cases hrun : work disk.files with
  | ok a files =>
    rw [hrun] at hwork
    exact EStateM.bind_of_ok hwork
  | error fault files =>
    rw [hrun] at hwork
    exact EStateM.bind_of_error hwork

/-- Writing fails for I/O alone, and only where the snapshot cannot be kept. -/
lemma write_error (rows : List StoredInstance) (now : Timestamp) (h : ¬ disk.files.Keeps path) :
    ∃ message later, write path rows now disk = .error (.io message) later := by
  rw [Files.keeps_iff] at h
  rw [write, onFiles_bind]
  cases hmade : Files.makeParents path disk.files with
  | error fault made => exact ⟨_, _, rfl⟩
  | ok _ made =>
    simp only
    rw [onFiles_bind, Files.write_run]
    cases hplace : Files.placeOfFile path made with
    | error fault => exact ⟨_, _, rfl⟩
    | ok place =>
      simp only
      rw [onFiles_bind, Files.write_run]
      have hne := Files.ne_nil_of_node? (Files.node?_of_placeOfFile hplace)
      cases hplace' : Files.placeOfFile (sidecarPath path) (made.put place (.file (data rows))) with
      | error fault => exact ⟨_, _, rfl⟩
      | ok place' =>
        exact absurd ⟨made, place, place', hmade, hplace, Files.placeOfFile_rewrite hne hplace'⟩ h

/-- Whether a disk has the snapshot of rows at a path, whose two files may be written there again.
-/
structure Saved (path : String) (rows : List StoredInstance) (now : Timestamp) (disk : Disk) :
    Prop where
  readData : disk.files.read path = .ok (data rows)
  readSidecar : disk.files.read (sidecarPath path) =
    .ok (sidecar (describe rows.length (data rows) now))
  keeps : disk.files.Keeps path
  parents : Files.makeParents path disk.files = .ok () disk.files

/-- Where both files can be written, the rows are saved. -/
lemma write_saved (rows : List StoredInstance) (now : Timestamp) (h : disk.files.Keeps path) :
    ∃ saved, write path rows now disk = .ok (describe rows.length (data rows) now) saved ∧
      Saved path rows now saved := by
  obtain ⟨made, place, place', hmade, hplace, hplace'⟩ := Files.keeps_iff.1 h
  let m := describe rows.length (data rows) now
  let kept := made.put place (.file (data rows))
  let both := kept.put place' (.file (sidecar m))
  have hdata : Files.write path (data rows) made = .ok () kept := by
    rw [Files.write_run, hplace]
  have hside : Files.write (sidecarPath path) (sidecar m) kept = .ok () both := by
    rw [Files.write_run, hplace']
  have hrun : write path rows now disk = .ok m
      { files := both
        log := disk.log ++ [⟨.info, .snapshot,
          s!"Wrote snapshot of {rows.length} instances to {path}"⟩] } := by
    rw [write, onFiles_bind, hmade]
    simp only
    rw [onFiles_bind, hdata]
    simp only
    rw [onFiles_bind, hside]
    rfl
  have hfree : made.node? place ≠ some .directory := Files.node?_of_placeOfFile hplace
  have hfree' : kept.node? place' ≠ some .directory := Files.node?_of_placeOfFile (hplace' _)
  have hgrows : Files.Grows made both := (Files.Grows.put hfree _).trans (.put hfree' _)
  have hagain := Files.makeParents_again hmade hgrows
  -- Each file may be put where it stands, since no directory came there.
  have hboth : Files.placeOfFile path both = .ok place :=
    Files.placeOfFile_put (Files.placeOfFile_put hplace hfree _) hfree' _
  have hboth' : Files.placeOfFile (sidecarPath path) both = .ok place' :=
    Files.placeOfFile_put (hplace' _) hfree' _
  have hfile : both.node? place ≠ some .directory := Files.node?_of_placeOfFile hboth
  exact ⟨_, hrun, Files.read_write_sidecar hdata hside, Files.read_write hside,
    Files.keeps_iff.2 ⟨both, place, place', hagain, hboth,
      fun bytes => Files.placeOfFile_put hboth' hfile bytes⟩, hagain⟩

/-- Both files are read back where they were written. -/
lemma write_ok (rows : List StoredInstance) (now : Timestamp) (h : disk.files.Keeps path) :
    ∃ saved, write path rows now disk = .ok (describe rows.length (data rows) now) saved ∧
      saved.files.read path = .ok (data rows) ∧
      saved.files.read (sidecarPath path) =
        .ok (sidecar (describe rows.length (data rows) now)) ∧
      saved.files.Keeps path := by
  obtain ⟨saved, hrun, hsaved⟩ := write_saved rows now h
  exact ⟨saved, hrun, hsaved.readData, hsaved.readSidecar, hsaved.keeps⟩

/-- What was written is saved. -/
lemma saved_of_write {now : Timestamp} {saved : Disk} {m : SnapshotMeta}
    (h : write path rows now disk = .ok m saved) : Saved path rows now saved := by
  by_cases hkeeps : disk.files.Keeps path
  · obtain ⟨saved', hrun, hsaved⟩ := write_saved rows now hkeeps
    rw [h] at hrun
    cases hrun
    exact hsaved
  · obtain ⟨message, later, herror⟩ := write_error rows now hkeeps
    rw [h] at herror
    cases herror

end Snapshot

namespace Store

variable {s : Store} {path : String} {disk : Disk}

/-- Rows that are read are restored. -/
lemma loadSnapshot_run {rows : List StoredInstance} {later : Disk}
    (h : Snapshot.read path disk = .ok rows later) :
    s.loadSnapshot path disk = .ok (rows.length, s.restore rows) later :=
  EStateM.bind_of_ok h

/-- A store that loads what another one saved has the rows of that one and no others, with nothing
else of it changed, and saves them in the same way. -/
theorem saveSnapshot_loadSnapshot (other : Store) (now : Timestamp)
    (hkeeps : disk.files.Keeps path)
    (hversions : ∀ key row, s.get? key = some row → row.record.version < wordBound)
    (hsize : (Snapshot.data s.instances).length < wordBound) :
    ∃ m saved restored,
      s.saveSnapshot path now disk = .ok m saved ∧
      other.loadSnapshot path saved = .ok (s.instanceCount, restored) saved ∧
      (∀ key, restored.get? key = s.get? key) ∧
      restored.outbox = other.outbox ∧ restored.commits = other.commits ∧
      restored.options = other.options ∧
      saved.files.Keeps path ∧
      ∀ path' later disk', disk'.files.Keeps path' →
        ∃ again, restored.saveSnapshot path' later disk' = .ok { m with createdAt := later } again ∧
          again.files.read path' = saved.files.read path ∧
          (again.files.read path').isOk = true := by
  obtain ⟨saved, hsave, hdata, hside, hagain⟩ :=
    Snapshot.write_ok s.instances now hkeeps
  have hdecode : Snapshot.decode path (Snapshot.data s.instances) _ = .ok s.instances :=
    Snapshot.decode_data now (fun row hrow => hversions _ row (mem_instances.1 hrow)) hsize
  have hload := loadSnapshot_run (s := other) (Snapshot.read_run hdata hside hdecode)
  rw [length_instances] at hload
  have hrows : ∀ key, (other.restore s.instances).get? key = s.get? key :=
    get?_restore_instances s other
  refine ⟨_, saved, other.restore s.instances, hsave, hload, hrows, rfl, rfl, rfl, hagain, ?_⟩
  intro path' later disk' hkeeps'
  obtain ⟨again, hsave', hdata', -, -⟩ :=
    Snapshot.write_ok s.instances later hkeeps'
  refine ⟨again, ?_, hdata'.trans hdata.symm, by rw [hdata']; rfl⟩
  unfold saveSnapshot
  rw [instances_eq hrows]
  exact hsave'

namespace Saving

/-- A row whose key has a quote, a backslash, a line end and a snowman. -/
def row : StoredInstance := ⟨⟨⟨"\"\\\n☃", "orders"⟩, -1, UInt64.size - 1⟩, 5, -7⟩

/-- A store with that row alone. -/
def store : Store := { table := InstanceTable.empty.put row }

/-- The store has no other row. -/
lemma get?_store {key : InstanceKey} {found : StoredInstance} (h : store.get? key = some found) :
    found = row := by
  change (InstanceTable.empty.put row).get? key = some found at h
  rw [InstanceTable.get?_put] at h
  split at h
  · exact (Option.some.inj h).symm
  · cases h

/-- The store lists its one row. -/
lemma instances_store : store.instances = [row] := List.mergeSort_singleton _

/-- A row with a key that needs every kind of escape and with numbers at their limits comes back
from its snapshot. -/
theorem row_comes_back :
    ∃ m saved restored, store.saveSnapshot "rows" 3 {} = .ok m saved ∧
      Store.loadSnapshot { commits := 8 } "rows" saved = .ok (1, restored) saved ∧
      restored.get? row.record.key = some row ∧ restored.commits = 8 := by
  have hsize : (Snapshot.data store.instances).length < wordBound := by
    rw [instances_store]
    decide +kernel
  have hkeeps : ({} : Disk).files.Keeps "rows" := ⟨_, rfl⟩
  have hversions : ∀ key found, store.get? key = some found → found.record.version < wordBound := by
    intro key found h
    rw [get?_store h]
    decide
  obtain ⟨m, saved, restored, hsave, hload, hrows, -, hcommits, -⟩ :=
    saveSnapshot_loadSnapshot { commits := 8 } 3 hkeeps hversions hsize
  exact ⟨m, saved, restored, hsave, hload, (hrows _).trans (by rfl), hcommits⟩

end Saving

end Store

end Saga
