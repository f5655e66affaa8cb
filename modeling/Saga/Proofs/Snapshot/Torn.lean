import Saga.Proofs.Json.Bytes
import Saga.Proofs.Snapshot.Loading

/-!
# Snapshots that were torn

The two files of a snapshot are written one after the other, and an interruption leaves a part of
the one that was being written (`writeUntil`). A part of the data file holds no rows and a part of
the sidecar says nothing (`parse_take`), so what can be read afterwards are the new rows in full, or
the former ones if their data file was not touched (`torn_refused_or_read`). The checksums have no
part in this: it holds for any sidecar that stands beside the data.
-/

namespace Saga.Snapshot

variable {path : String} {rows : List StoredInstance} {disk torn : Disk} {now : Timestamp}

/-! ## Parts of a file -/

/-- A part of a file with a list or a record in it cannot be read. -/
lemma parse_take {α : Type} {write : α → Json} {read : Json → Except Json.Fault α} {a : α}
    (h : Json.ReadsBack write read a) (hopens : Json.Opens (Json.prettyChars 0 (write a))) {n : Nat}
    (hn : n < (Utf8.encode (Json.pretty (write a))).length) :
    parse read ((Utf8.encode (Json.pretty (write a))).take n) = .error (.json .malformed) := by
  have hne :
      (Utf8.encode (Json.pretty (write a))).take n ≠ Utf8.encode (Json.pretty (write a)) := by
    intro heq
    have hlength := congrArg List.length heq
    rw [List.length_take] at hlength
    omega
  have hcut : Json.ofBytes? ((Utf8.encode (Json.pretty (write a))).take n) = none :=
    Json.ofBytes?_cut hopens (Json.spells_pretty 0 h.exact) (List.take_prefix n _) hne
  unfold parse
  rw [hcut]

/-- Data that was cut off is no list of rows. -/
lemma parse_data_take (hversions : ∀ row ∈ rows, row.record.version < wordBound) {n : Nat}
    (hn : n < (data rows).length) :
    parse (Json.asList StoredInstance.ofJson) ((data rows).take n) = .error (.json .malformed) := by
  have hback := Json.ReadsBack.asList fun row hrow => StoredInstance.readsBack (hversions row hrow)
  refine parse_take hback ?_ hn
  cases rows with
  | nil => exact ⟨'[', _, rfl, .inl rfl⟩
  | cons row rows => exact ⟨'[', _, rfl, .inl rfl⟩

/-- A sidecar that was cut off is no description. -/
lemma parse_sidecar_take (hsize : (data rows).length < wordBound) {n : Nat}
    (hn : n < (sidecar (describe rows.length (data rows) now)).length) :
    parse SnapshotMeta.ofJson ((sidecar (describe rows.length (data rows) now)).take n) =
      .error (.json .malformed) :=
  parse_take (SnapshotMeta.readsBack (Nat.lt_of_le_of_lt (length_le_data rows) hsize) hsize)
    ⟨'\x7b', _, rfl, .inr rfl⟩ hn

/-- A data file that holds some first bytes of the data of rows gives no other rows, and these only
if it holds all bytes, whatever the sidecar says. -/
lemma read_take (hversions : ∀ row ∈ rows, row.record.version < wordBound) {n : Nat}
    (hdata : torn.files.read path = .ok ((data rows).take n)) :
    (∃ e, Refused path torn e) ∨ (data rows).length ≤ n ∧ read path torn = .ok rows torn := by
  obtain ⟨found, hread⟩ | ⟨e, herror⟩ := read_cases path torn
  · right
    -- Whatever the sidecar says, rows are given only if the data parse, and a part does not.
    have hrows : parse (Json.asList StoredInstance.ofJson) ((data rows).take n) = .ok found := by
      rw [read_eq, hdata] at hread
      simp only at hread
      split at hread
      · cases hread
      · split at hread
        · next hdecode =>
          cases hread
          exact parse_of_decode hdecode
        · cases hread
    have hn : (data rows).length ≤ n := by
      refine Nat.not_lt.1 fun hlt => ?_
      rw [parse_data_take hversions hlt] at hrows
      cases hrows
    rw [List.take_of_length_le hn, parse_data hversions] at hrows
    cases hrows
    exact ⟨hn, hread⟩
  · exact .inl ⟨e, refused_of_read herror⟩

/-! ## Interruptions -/

/-- Where the writing of a snapshot stops. -/
inductive Stop where
  /-- The directories stand and neither file was touched. -/
  | before
  /-- So many bytes of the data file are written. -/
  | inData (written : Nat)
  /-- The data file is written, and so many bytes of the sidecar. -/
  | inSidecar (written : Nat)

/-- Writes rows to a path as far as to an interruption. -/
def writeUntil (path : String) (rows : List StoredInstance) (now : Timestamp) (stop : Stop) :
    DiskRun Unit := do
  onFiles (Files.makeParents path)
  match stop with
  | .before => pure ()
  | .inData written => onFiles (Files.write path ((data rows).take written))
  | .inSidecar written => do
    onFiles (Files.write path (data rows))
    onFiles (Files.write (sidecarPath path)
      ((sidecar (describe rows.length (data rows) now)).take written))

/-- Writing that is not interrupted. -/
lemma write_eq_writeUntil (path : String) (rows : List StoredInstance) (now : Timestamp) :
    write path rows now = do
      let m := describe rows.length (data rows) now
      writeUntil path rows now (.inSidecar (sidecar m).length)
      modify fun disk => { disk with
        log := disk.log ++ [⟨.info, .snapshot,
          s!"Wrote snapshot of {m.instanceCount} instances to {path}"⟩] }
      return m := by
  simp only [write, writeUntil, List.take_length, bind_assoc]

/-- What an interruption leaves: the directories alone, or some first bytes of the data, and of the
sidecar if that was reached. -/
lemma writeUntil_cases (path : String) (rows : List StoredInstance) (now : Timestamp) (stop : Stop)
    (disk : Disk) :
    ((Run.final (writeUntil path rows now stop disk)).files =
        Run.final (Files.makeParents path disk.files) ∧
      (stop = .before ∨ ¬ disk.files.Keeps path)) ∨
    ∃ n, (Run.final (writeUntil path rows now stop disk)).files.read path =
        .ok ((data rows).take n) ∧
      (∀ k, stop = .inData k → k = n) ∧
      (disk.files.Keeps path → ∀ k, stop = .inSidecar k →
        (Run.final (writeUntil path rows now stop disk)).files.read (sidecarPath path) =
          .ok ((sidecar (describe rows.length (data rows) now)).take k)) := by
  unfold writeUntil
  rw [onFiles_bind]
  cases hmade : Files.makeParents path disk.files with
  | error fault made =>
    refine .inl ⟨rfl, .inr fun hkeeps => ?_⟩
    obtain ⟨made', -, -, hmade', -⟩ := Files.keeps_iff.1 hkeeps
    rw [hmade] at hmade'
    cases hmade'
  | ok _ made =>
    cases stop with
    | before => exact .inl ⟨rfl, .inl rfl⟩
    | inData k =>
      simp only
      rw [onFiles_run]
      cases hwrite : Files.write path ((data rows).take k) made with
      | error fault left =>
        exact .inl ⟨Files.eq_of_write_error hwrite, .inr (Files.not_keeps_of_write hmade hwrite)⟩
      | ok _ kept => exact .inr ⟨k, Files.read_write hwrite, by rintro _ ⟨⟩; rfl, nofun⟩
    | inSidecar k =>
      simp only
      rw [onFiles_bind]
      cases hwrite : Files.write path (data rows) made with
      | error fault left =>
        exact .inl ⟨Files.eq_of_write_error hwrite, .inr (Files.not_keeps_of_write hmade hwrite)⟩
      | ok _ kept =>
        simp only
        rw [onFiles_run]
        cases hside : Files.write (sidecarPath path)
          ((sidecar (describe rows.length (data rows) now)).take k) kept with
        | error fault left =>
          refine .inr ⟨(data rows).length, ?_, nofun, fun hkeeps => ?_⟩
          · rw [List.take_length, Run.final_error, Files.eq_of_write_error hside]
            exact Files.read_write hwrite
          · exact absurd hkeeps (Files.not_keeps_of_write_sidecar hmade hwrite hside)
        | ok _ both =>
          refine .inr ⟨(data rows).length, ?_, nofun, ?_⟩
          · rw [List.take_length]
            exact Files.read_write_sidecar hwrite hside
          · rintro - _ ⟨⟩
            exact Files.read_write hside

/-- What there was at a path: the snapshot of some rows, or no file that is read there once the
directories stand. -/
inductive Former (path : String) (disk : Disk) : Option (List StoredInstance) → Prop where
  | saved {rows : List StoredInstance} {now : Timestamp} :
    Saved path rows now disk → (∀ row ∈ rows, row.record.version < wordBound) →
    Former path disk (some rows)
  | absent :
    (∀ bytes, (Run.final (Files.makeParents path disk.files)).read path ≠ .ok bytes) →
    Former path disk none

/-- Where no data is read nothing is loaded. -/
lemma refused_of_absent (h : ∀ bytes, torn.files.read path ≠ .ok bytes) :
    ∃ e, Refused path torn e := by
  cases hread : torn.files.read path with
  | ok bytes => exact absurd hread (h bytes)
  | error fault => exact ⟨_, refused_of_read (by rw [read_eq, hread])⟩

/-- Where neither file was touched there is what there was. -/
lemma Former.read {former : Option (List StoredInstance)} (h : Former path disk former)
    (hfiles : torn.files = Run.final (Files.makeParents path disk.files)) :
    (∃ e, Refused path torn e) ∨
      ∃ rows₀, former = some rows₀ ∧ read path torn = .ok rows₀ torn := by
  cases h with
  | @saved rows₀ now hsaved hversions =>
    have hdata : torn.files.read path = .ok ((data rows₀).take (data rows₀).length) := by
      rw [hfiles, hsaved.parents, List.take_length]
      exact hsaved.readData
    exact (read_take hversions hdata).imp_right fun hread => ⟨rows₀, rfl, hread.2⟩
  | absent h => exact .inl (refused_of_absent (hfiles ▸ h))

/-- Where the files could not be written, there was none. -/
lemma Former.refused {former : Option (List StoredInstance)} (h : Former path disk former)
    (hkeeps : ¬ disk.files.Keeps path)
    (hfiles : torn.files = Run.final (Files.makeParents path disk.files)) :
    ∃ e, Refused path torn e := by
  cases h with
  | saved hsaved => exact absurd hsaved.keeps hkeeps
  | absent h => exact refused_of_absent (hfiles ▸ h)

/-- After an interruption a load is refused, or it gives the rows that were written, or, if neither
file was touched, those that were there before. It is refused if a part of a file is missing. -/
theorem torn_refused_or_read {former : Option (List StoredInstance)} (now : Timestamp) (stop : Stop)
    (hformer : Former path disk former) (hversions : ∀ row ∈ rows, row.record.version < wordBound) :
    let torn := Run.final (writeUntil path rows now stop disk)
    ((∃ e, Refused path torn e) ∨ read path torn = .ok rows torn ∨
      (stop = .before ∧ ∃ rows₀, former = some rows₀ ∧ read path torn = .ok rows₀ torn)) ∧
    (∀ n, stop = .inData n → n < (data rows).length → ∃ e, Refused path torn e) ∧
    (∀ n, stop = .inSidecar n → disk.files.Keeps path → (data rows).length < wordBound →
      n < (sidecar (describe rows.length (data rows) now)).length → ∃ e, Refused path torn e) := by
  intro torn
  obtain ⟨hfiles, hstop⟩ | ⟨n, hdata, hinData, hinSidecar⟩ :=
    writeUntil_cases path rows now stop disk
  · rcases hstop with rfl | hkeeps
    · exact ⟨(hformer.read hfiles).imp_right fun hread => .inr ⟨rfl, hread⟩, nofun, nofun⟩
    · have hrefused := hformer.refused hkeeps hfiles
      exact ⟨.inl hrefused, fun _ _ _ => hrefused, fun _ _ hkeeps' => absurd hkeeps' hkeeps⟩
  · refine ⟨(read_take hversions hdata).imp_right fun hread => .inl hread.2, ?_, ?_⟩
    · intro k hk hlt
      rw [hinData k hk] at hlt
      exact (read_take hversions hdata).resolve_right fun hread => Nat.not_le.2 hlt hread.1
    · intro k hk hkeeps hsize hlt
      refine ⟨_, refused_of_read (e := .json .malformed) ?_⟩
      rw [read_eq, hdata, hinSidecar hkeeps k hk]
      simp only [decode_eq, parse_sidecar_take hsize hlt]

namespace Tearing

/-- Beside the sidecar of the former rows stand data that end in the middle of a character. -/
theorem row_refused :
    ∃ e, Refused "rows" (Run.final
      (writeUntil "rows" [Store.Saving.row] 4 (.inData 71) (Loading.saved []))) e := by
  have hformer : Former "rows" (Loading.saved []) (some []) :=
    .saved (saved_of_write (Loading.write_eq [])) nofun
  have hversions : ∀ row ∈ [Store.Saving.row], row.record.version < wordBound := by decide
  have hpart : 71 < (data [Store.Saving.row]).length := by
    rw [data_eq]
    decide +kernel
  exact (torn_refused_or_read 4 (.inData 71) hformer hversions).2.1 71 rfl hpart

end Tearing

end Saga.Snapshot
