import Saga.Proofs.Storage.Lifecycle

/-!
# The table as a map

Rows come to stand under keys in three ways: a write adds one, a write changes one where it stands,
and restoring puts in a whole list. Here they do so in a map that knows nothing of its rows
(`RowMap`). The history of the calls on a store makes such a map (`History.rows`), in which every
row stands under the key that it carries (`RowMap.Own.history`), and the table of the store is that
map (`Chronicle.rows_run`).
-/

namespace Saga

/-- Rows under keys, whatever the keys have to do with the rows. -/
abbrev RowMap := Keyed InstanceKey StoredInstance

namespace RowMap

/-- Makes a write: adds a row, or changes the one that is there in its place. -/
def write (rows : RowMap) (p : Posting) : RowMap :=
  match p.write with
  | .add record => rows.insert record.key (Store.added p.time record)
  | .update record => rows.modify record.key fun row => row.advanced p.time record.state

/-- The map of a list of rows. -/
def restored (rows : List StoredInstance) : RowMap :=
  Keyed.ofList (rows.map fun row => (row.record.key, row))

/-- What a call after others makes of the rows. -/
def after {ι : Type} [DecidableEq ι] (rows : RowMap) (past : History ι) :
    Call ι × Reply → RowMap
  | (.restore given, .done) => restored given
  | entry => (past.postedBy entry).foldl write rows

end RowMap

namespace History

variable {ι : Type} [DecidableEq ι]

/-- What some more calls make of the rows. -/
def rowsFrom (rows : RowMap) (seen : History ι) : History ι → RowMap
  | [] => rows
  | entry :: rest => rowsFrom (rows.after seen entry) (seen ++ [entry]) rest

/-- What calls make of the rows that there were at first. -/
def rows (start : RowMap) (h : History ι) : RowMap := rowsFrom start [] h

/-- Read from some point on, one more call changes the rows as it does after those before it. -/
lemma rowsFrom_concat (rows : RowMap) (seen h : History ι) (entry : Call ι × Reply) :
    rowsFrom rows seen (h ++ [entry]) = (rowsFrom rows seen h).after (seen ++ h) entry := by
  induction h generalizing rows seen with
  | nil => simp [rowsFrom]
  | cons first rest ih => simp [rowsFrom, ih, List.append_assoc]

/-- One more call changes the rows as it does after those before it. -/
lemma rows_concat (start : RowMap) (h : History ι) (entry : Call ι × Reply) :
    rows start (h ++ [entry]) = (h.rows start).after h entry :=
  rowsFrom_concat start [] h entry

end History

/-! ## Keys -/

namespace RowMap

/-- Whether every row stands under its own key. -/
def Own (rows : RowMap) : Prop := ∀ key row, rows.get? key = some row → row.record.key = key

namespace Own

variable {rows : RowMap}

/-- There is no row under another key where there is none. -/
lemma empty : Own Keyed.empty := nofun

/-- A row that is put under its own key leaves all rows under theirs. -/
lemma insert (h : rows.Own) (row : StoredInstance) :
    Own (Keyed.insert rows row.record.key row) := by
  intro key found hfound
  rw [Keyed.get?_insert] at hfound
  split at hfound
  · next hkey =>
    cases hfound
    exact hkey
  · exact h key found hfound

/-- A write leaves all rows under their own keys. -/
lemma write (h : rows.Own) (p : Posting) : (rows.write p).Own := by
  obtain ⟨now, write⟩ := p
  cases write with
  | add record => exact h.insert (Store.added now record)
  | update record =>
    intro key found hfound
    rw [RowMap.write, Keyed.get?_modify] at hfound
    split at hfound
    · obtain ⟨row, hrow, rfl⟩ := Option.map_eq_some_iff.1 hfound
      exact h key row hrow
    · exact h key found hfound

/-- Writes leave all rows under their own keys. -/
lemma writes (h : rows.Own) (postings : List Posting) : (postings.foldl RowMap.write rows).Own := by
  induction postings generalizing rows with
  | nil => exact h
  | cons p rest ih => exact ih (h.write p)

/-- The rows of a list come under their own keys, also where one comes after another. -/
lemma restored (given : List StoredInstance) : (restored given).Own := by
  have hfold : ∀ {rows : RowMap}, rows.Own →
      ((given.map fun row => (row.record.key, row)).foldl
        (fun t e => t.insert e.1 e.2) rows).Own := by
    induction given with
    | nil => exact id
    | cons row rest ih => exact fun h => ih (h.insert row)
  exact hfold empty

variable {ι : Type} [DecidableEq ι]

/-- A call leaves all rows under their own keys. -/
lemma after (h : rows.Own) (past : History ι) (entry : Call ι × Reply) :
    (rows.after past entry).Own := by
  unfold RowMap.after
  split
  · exact .restored _
  · exact h.writes _

/-- Whatever is called, every row stands under its own key. -/
lemma history {start : RowMap} (h : start.Own) (past : History ι) : (past.rows start).Own := by
  have hfrom : ∀ {rows : RowMap} {seen : History ι}, rows.Own →
      (History.rowsFrom rows seen past).Own := by
    induction past with
    | nil => exact id
    | cons entry rest ih => exact fun h => ih (h.after _ entry)
  exact hfrom h

end Own

end RowMap

/-! ## Tables -/

namespace InstanceTable

/-- The rows of a table stand under their own keys. -/
lemma own (t : InstanceTable) : RowMap.Own t.rows := t.keyed

/-- Applying a batch to a table makes its writes in the map of rows. -/
lemma rows_applyAll (now : Timestamp) (t : InstanceTable) (writes : List StagedWrite) :
    (Store.applyAll now t writes).rows =
      (writes.map (Posting.mk now)).foldl RowMap.write t.rows := by
  unfold Store.applyAll
  induction writes generalizing t with
  | nil => rfl
  | cons write rest ih =>
    have hrows : (Store.applyWrite now t write).rows = RowMap.write t.rows ⟨now, write⟩ := by
      cases write <;> rfl
    rw [List.foldl_cons, ih, hrows]
    rfl

/-- The map of restored rows is that of their list. -/
lemma rows_ofList (given : List StoredInstance) : (ofList given).rows = RowMap.restored given := by
  have hfold : ∀ t : InstanceTable, (given.foldl put t).rows =
      (given.map fun row => (row.record.key, row)).foldl (fun t e => t.insert e.1 e.2) t.rows := by
    induction given with
    | nil => exact fun t => rfl
    | cons row rest ih => exact fun t => ih (t.put row)
  exact hfold empty

end InstanceTable

namespace Chronicle

variable {ι : Type} [DecidableEq ι]

/-- A call makes of the table what the history tells. -/
lemma rows_step {c : Chronicle ι} (h : ∀ i, c.storage.sessions i = c.past.session i)
    (call : Call ι) :
    (c.step call).storage.store.table.rows =
      RowMap.after c.storage.store.table.rows c.past (call, (c.storage.perform call).1) := by
  unfold Chronicle.step
  cases call with
  | commit i cancelled now =>
    simp only [Storage.perform]
    split
    · next session store hok =>
      obtain ⟨-, hopen, -, hstore⟩ := Session.commit_eq_ok_iff.1 hok
      obtain ⟨-, rfl⟩ := Store.commit_eq_ok_iff.1 hstore
      rw [h i] at hopen
      have hwrites : (c.storage.sessions i).writes = c.past.staged i := by
        rw [h i, History.session_of_not_mem (History.not_mem_committers_of_open hopen)]
      rw [hwrites]
      exact InstanceTable.rows_applyAll now _ _
    · rfl
  | restore given => exact InstanceTable.rows_ofList given
  | drain => rfl
  | find i cancelled key =>
    simp only [Storage.perform]
    split <;> rfl
  | stage i write =>
    simp only [Storage.perform]
    split <;> rfl
  | post i cancelled message =>
    simp only [Storage.perform]
    split <;> rfl

/-- After any calls on fresh sessions the table of a store is the map that the history makes. -/
lemma rows_run (start : Store) (calls : List (Call ι)) :
    let c := (opened start).run calls
    c.storage.store.table.rows = c.past.rows start.table.rows := by
  let P : Chronicle ι → Prop := fun c =>
    (∀ i, c.storage.sessions i = c.past.session i) ∧
      c.storage.store.table.rows = c.past.rows start.table.rows
  have hrun : P ((opened start).run calls) := by
    apply run_induction
    · exact ⟨fun _ => rfl, rfl⟩
    · rintro c call ⟨hsessions, hrows⟩
      refine ⟨session_step hsessions call, ?_⟩
      rw [rows_step hsessions call, hrows]
      exact (History.rows_concat start.table.rows c.past _).symm
  exact hrun.2

end Chronicle

end Saga
