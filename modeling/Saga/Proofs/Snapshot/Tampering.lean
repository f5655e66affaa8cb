import Saga.Proofs.Checksum.Bursts
import Saga.Proofs.Snapshot.Loading

/-!
# Data that was tampered with

A data file is checked against its sidecar before a row of it is read (`Snapshot.decode_mismatch`).
Bytes of a saved data file that are altered in a window of four, and nowhere else, have a checksum
of their own, so no load takes them (`Snapshot.burst_refused`).
-/

namespace Saga.Snapshot

/-- Bytes that differ from others in a window of four and nowhere else share what is around it. -/
lemma exists_window {k : Nat} {bytes altered : List UInt8} (hlength : altered.length = bytes.length)
    (hsame : ∀ i, i < k ∨ k + 4 ≤ i → altered[i]? = bytes[i]?) :
    ∃ front xs ys back, bytes = front ++ (xs ++ back) ∧ altered = front ++ (ys ++ back) ∧
      xs.length = ys.length ∧ xs.length ≤ 4 := by
  have hfront : altered.take k = bytes.take k := by
    apply List.ext_getElem?
    intro i
    by_cases hi : i < k
    · rw [List.getElem?_take_of_lt hi, List.getElem?_take_of_lt hi, hsame i (.inl hi)]
    · rw [List.getElem?_eq_none (by simp; omega), List.getElem?_eq_none (by simp; omega)]
  have hback : altered.drop (k + 4) = bytes.drop (k + 4) := by
    apply List.ext_getElem?
    intro i
    rw [List.getElem?_drop, List.getElem?_drop, hsame _ (.inr (by omega))]
  refine ⟨bytes.take k, (bytes.drop k).take 4, (altered.drop k).take 4, bytes.drop (k + 4),
    ?_, ?_, ?_, ?_⟩
  · rw [← List.drop_drop, List.take_append_drop, List.take_append_drop]
  · rw [← hfront, ← hback, ← List.drop_drop, List.take_append_drop, List.take_append_drop]
  · simp [hlength]
  · exact List.length_take_le 4 _

/-- Data with another checksum than the sidecar gives are not looked at. -/
lemma decode_mismatch {path : String} {bytes beside : List UInt8} {m : SnapshotMeta}
    (hside : parse SnapshotMeta.ofJson beside = .ok m)
    (hsum : Checksum.hex (Checksum.crc32c bytes) ≠ m.checksum) :
    decode path bytes beside = .error (.corruption
      s!"snapshot {path} checksum mismatch: expected {m.checksum}, got {
        Checksum.hex (Checksum.crc32c bytes)}") := by
  rw [decode_eq, hside]
  simp only [if_neg hsum]

/-- A saved snapshot whose data file was altered in a window of four bytes, and nowhere else, is
refused for its checksum. -/
theorem burst_refused {path : String} {rows : List StoredInstance} {now : Timestamp}
    {disk saved tampered : Disk} {m : SnapshotMeta} {bytes altered : List UInt8} (k : Nat)
    (hwrite : write path rows now disk = .ok m saved)
    (hbytes : saved.files.read path = .ok bytes) (hsize : bytes.length < wordBound)
    (haltered : tampered.files.read path = .ok altered)
    (hsidecar : tampered.files.read (sidecarPath path) = saved.files.read (sidecarPath path))
    (hlength : altered.length = bytes.length) (hne : altered ≠ bytes)
    (hsame : ∀ i, i < k ∨ k + 4 ≤ i → altered[i]? = bytes[i]?) :
    Refused path tampered (.corruption
      s!"snapshot {path} checksum mismatch: expected {
        Checksum.hex (Checksum.crc32c bytes)}, got {Checksum.hex (Checksum.crc32c altered)}") := by
  have hsaved := saved_of_write hwrite
  obtain rfl : data rows = bytes := Except.ok.inj (hsaved.readData.symm.trans hbytes)
  -- The sidecar is that of the former data, so it comes down to the two checksums.
  obtain ⟨front, xs, ys, back, hold, hnew, hwindow, hfour⟩ := exists_window hlength hsame
  have hsum : Checksum.hex (Checksum.crc32c altered) ≠
      Checksum.hex (Checksum.crc32c (data rows)) := by
    intro heq
    have hcrc := Checksum.hex_injective heq
    rw [hold, hnew] at hcrc
    refine Checksum.crc32c_ne_of_burst front back ?_ hwindow hfour hcrc.symm
    rintro rfl
    exact hne (hnew.trans hold.symm)
  apply refused_of_read
  rw [read_eq, haltered, hsidecar, hsaved.readSidecar]
  simp only [decode_mismatch (parse_sidecar now hsize) hsum]
  rfl

namespace Tampering

/-- A row of some version, with the brackets of the format in its key. -/
def row (version : Nat) : StoredInstance := ⟨⟨⟨"]\x7d\"[\x7b", "order"⟩, 1, version⟩, 5, 6⟩

/-- A disk on which rows were saved, with the data of others in place of theirs. -/
def tampered (rows others : List StoredInstance) : Disk :=
  ⟨Run.final (Files.write "rows" (data others) (Loading.saved rows).files), []⟩

section Reading

variable (rows others : List StoredInstance)

/-- The saved data is what is read. -/
lemma read_saved : (Loading.saved rows).files.read "rows" = .ok (data rows) := rfl

/-- The data of the others is what is read after the tampering. -/
lemma read_tampered : (tampered rows others).files.read "rows" = .ok (data others) := rfl

/-- The tampering leaves the sidecar. -/
lemma read_sidecar :
    (tampered rows others).files.read (sidecarPath "rows") =
      (Loading.saved rows).files.read (sidecarPath "rows") := rfl

end Reading

/-- The data of another version are those of a row as well, but not of the saved one. -/
theorem version_refused :
    Refused "rows" (tampered [row 2] [row 3]) (.corruption
      s!"snapshot rows checksum mismatch: expected {
        Checksum.hex (Checksum.crc32c (data [row 2]))}, got {
        Checksum.hex (Checksum.crc32c (data [row 3]))}") := by
  obtain ⟨hdigit, hne, hsize⟩ : data [row 3] = (data [row 2]).set 147 0x33 ∧
      data [row 3] ≠ data [row 2] ∧ (data [row 2]).length < wordBound := by
    rw [data_eq, data_eq]
    decide +kernel
  refine burst_refused 147 (Loading.write_eq _) (read_saved _) hsize (read_tampered _ _)
    (read_sidecar _ _) (by rw [hdigit, List.length_set]) hne fun i hi => ?_
  rw [hdigit, List.getElem?_set_ne (by omega)]

end Tampering

end Saga.Snapshot
