import Saga.Proofs.Storage.Chronicle
import Saga.Proofs.Storage.Ledger

/-!
# The books of a chronicle

The history of the calls on a store says what each session has staged and when it has committed, so
the ledger of the store can be read off it (`History.ledger`). Unless the rows were replaced in
between, the store has made exactly the writes of that ledger, in that order (`Chronicle.Posted`),
so it explains every row at every point of every run (`Chronicle.explains_run`).
-/

namespace Saga

variable {ι : Type} [DecidableEq ι]

namespace History

/-- The write that a session staged by a call, if it did. -/
def stagedBy (i : ι) : Call ι × Reply → List StagedWrite
  | (.stage j write, .done) => if j = i then [write] else []
  | _ => []

/-- The writes that a session staged, in that order. -/
def staged (h : History ι) (i : ι) : List StagedWrite := h.flatMap (stagedBy i)

/-- The writes that a call has committed, if it did: all that its session staged before. -/
def postedBy (h : History ι) : Call ι × Reply → Ledger
  | (.commit i _ now, .done) => (h.staged i).map (Posting.mk now)
  | _ => []

/-- The writes that some more calls have committed. -/
def ledgerFrom (seen : History ι) : History ι → Ledger
  | [] => []
  | entry :: rest => seen.postedBy entry ++ ledgerFrom (seen ++ [entry]) rest

/-- The writes of all batches that were committed, in the order of the commits. -/
def ledger (h : History ι) : Ledger := ledgerFrom [] h

/-- Read from some point on, one more call adds to the ledger what it has committed. -/
lemma ledgerFrom_concat (seen h : History ι) (entry : Call ι × Reply) :
    ledgerFrom seen (h ++ [entry]) = ledgerFrom seen h ++ postedBy (seen ++ h) entry := by
  induction h generalizing seen with
  | nil => simp [ledgerFrom]
  | cons first rest ih => simp [ledgerFrom, ih, List.append_assoc]

/-- One more call adds to the ledger what it has committed. -/
@[simp] lemma ledger_concat (h : History ι) (entry : Call ι × Reply) :
    ledger (h ++ [entry]) = h.ledger ++ h.postedBy entry :=
  ledgerFrom_concat [] h entry

/-- One more call adds to what a session has staged if it stages a write there. -/
@[simp] lemma staged_concat (h : History ι) (entry : Call ι × Reply) (i : ι) :
    staged (h ++ [entry]) i = h.staged i ++ stagedBy i entry := by
  simp [staged]

end History

namespace Storage

/-- Apart from replacing the rows, what a call does to them is to make writes. -/
lemma perform_table (w : Storage ι) {call : Call ι} (hcall : ∀ rows, call ≠ .restore rows) :
    ∃ ledger,
      w.store.table.writeAll w.store.options ledger = .ok (w.perform call).2.store.table := by
  cases call with
  | commit i cancelled now =>
    simp only [perform]
    split
    · next session store hcommit =>
      obtain ⟨-, -, -, hstore⟩ := Session.commit_eq_ok_iff.1 hcommit
      exact ⟨_, (Store.writeAll_of_commit hstore).1⟩
    · exact ⟨[], rfl⟩
  | restore rows => exact absurd rfl (hcall rows)
  | drain => exact ⟨[], rfl⟩
  | _ =>
    simp only [perform]
    split <;> exact ⟨[], rfl⟩

end Storage

namespace Chronicle
open History

/-- The store of a chronicle has made the writes of its ledger, and what an open session holds is
what it staged. -/
structure Posted (start : Store) (c : Chronicle ι) : Prop where
  made : start.table.writeAll start.options c.past.ledger = .ok c.storage.store.table
  options : c.storage.store.options = start.options
  held : ∀ i, (c.storage.sessions i).committed = false →
    (c.storage.sessions i).writes = c.past.staged i

namespace Posted

variable {start : Store} {c : Chronicle ι} {i : ι} {call : Call ι} {reply : Reply}

/-- On a fresh store nothing is posted. -/
lemma opened (start : Store) : Posted start (Chronicle.opened start : Chronicle ι) where
  made := rfl
  options := rfl
  held _ _ := rfl

/-- A call whose reply says nothing of writes may only do what no row sees. -/
lemma silent (h : Posted start c) {w : Storage ι} (hstaged : ∀ i, stagedBy i (call, reply) = [])
    (hposted : c.past.postedBy (call, reply) = []) (htable : w.store.table = c.storage.store.table)
    (hoptions : w.store.options = c.storage.store.options)
    (hsessions : ∀ i, (w.sessions i).committed = (c.storage.sessions i).committed ∧
      (w.sessions i).writes = (c.storage.sessions i).writes) :
    Posted start ⟨w, c.past ++ [(call, reply)]⟩ where
  made := by
    rw [ledger_concat, hposted, List.append_nil, htable]
    exact h.made
  options := hoptions.trans h.options
  held i hopen := by
    obtain ⟨hcommitted, hwrites⟩ := hsessions i
    rw [staged_concat, hstaged, List.append_nil, hwrites]
    exact h.held i (hcommitted ▸ hopen)

/-- A write that a session stages is held by the session. -/
lemma stage (h : Posted start c) {write : StagedWrite} {session : Session}
    (hok : (c.storage.sessions i).stage write = .ok session) :
    Posted start ⟨c.storage.withSession i session, c.past ++ [(.stage i write, .done)]⟩ := by
  obtain ⟨hopen, rfl⟩ := Session.stage_eq_ok_iff.1 hok
  refine ⟨?made, h.options, fun j hj => ?held⟩
  case made =>
    rw [ledger_concat]
    simpa [postedBy, Storage.withSession] using h.made
  case held =>
    rw [staged_concat]
    by_cases hji : j = i
    · subst hji
      have hheld := h.held j hopen
      simp [Storage.withSession, hheld, stagedBy]
    · simp only [Storage.withSession, Function.update_of_ne hji] at hj ⊢
      simpa [stagedBy, Ne.symm hji] using h.held j hj

/-- A successful commit makes the writes that its session has staged. -/
lemma commit (h : Posted start c) {cancelled : Bool} {now : Timestamp} {session : Session}
    {store : Store}
    (hok : (c.storage.sessions i).commit c.storage.store cancelled now = .ok (session, store)) :
    Posted start
      ⟨{ c.storage.withSession i session with store },
        c.past ++ [(.commit i cancelled now, .done)]⟩ := by
  obtain ⟨-, hopen, rfl, hstore⟩ := Session.commit_eq_ok_iff.1 hok
  obtain ⟨hmade, hoptions⟩ := Store.writeAll_of_commit hstore
  refine ⟨?made, hoptions.trans h.options, fun j hj => ?held⟩
  case made =>
    rw [ledger_concat]
    rw [h.options, h.held i hopen] at hmade
    exact InstanceTable.writeAll_append_eq_ok_iff.2 ⟨_, h.made, hmade⟩
  case held =>
    rw [staged_concat]
    by_cases hji : j = i
    · subst hji
      simp [Storage.withSession, Session.closed] at hj
    · simp only [Storage.withSession, Function.update_of_ne hji] at hj ⊢
      simpa [stagedBy] using h.held j hj

/-- Every call but the replacing of the rows keeps the books. -/
lemma step (h : Posted start c) (hcall : ∀ rows, call ≠ .restore rows) :
    Posted start (c.step call) := by
  unfold Chronicle.step
  cases call with
  | stage i write =>
    simp only [Storage.perform]
    split
    · next session hok => exact h.stage hok
    · exact h.silent (fun _ => rfl) rfl rfl rfl fun _ => ⟨rfl, rfl⟩
  | post i cancelled message =>
    simp only [Storage.perform]
    split
    · next session hok =>
      obtain ⟨-, -, rfl⟩ := Session.enqueue_eq_ok_iff.1 hok
      refine h.silent (fun _ => rfl) rfl rfl rfl fun j => ?_
      by_cases hji : j = i
      · subst hji
        simp [Storage.withSession]
      · simp [Storage.withSession, hji]
    · exact h.silent (fun _ => rfl) rfl rfl rfl fun _ => ⟨rfl, rfl⟩
  | commit i cancelled now =>
    simp only [Storage.perform]
    split
    · next session store hok => exact h.commit hok
    · exact h.silent (fun _ => rfl) rfl rfl rfl fun _ => ⟨rfl, rfl⟩
  | find i cancelled key =>
    simp only [Storage.perform]
    split
    all_goals exact h.silent (fun _ => rfl) rfl rfl rfl fun _ => ⟨rfl, rfl⟩
  | drain => exact h.silent (fun _ => rfl) rfl rfl rfl fun _ => ⟨rfl, rfl⟩
  | restore rows => exact absurd rfl (hcall rows)

end Posted

/-- The books are right after every run on fresh sessions in which the rows are not replaced. -/
lemma posted_run (start : Store) {calls : List (Call ι)} (hcalls : ∀ rows, .restore rows ∉ calls) :
    Posted start ((opened start).run calls) := by
  apply run_induction_of_mem (Posted.opened start)
  intro c call hmem h
  apply h.step
  rintro rows rfl
  exact hcalls rows hmem

/-- After any calls on the sessions of a store that began without rows, its ledger explains them. -/
lemma explains_run (options : StoreOptions) {calls : List (Call ι)}
    (hcalls : ∀ rows, .restore rows ∉ calls) :
    let c := (opened { options }).run calls
    c.past.ledger.Explains options c.storage.store.table :=
  Ledger.explains_of_writeAll (posted_run { options } hcalls).made

/-- A row that is there stays through all calls that do not replace the rows, and is as old as it
was. -/
lemma row_stays (c : Chronicle ι) {calls : List (Call ι)} (hcalls : ∀ rows, .restore rows ∉ calls)
    {key : InstanceKey} {row : StoredInstance} (hrow : c.storage.store.get? key = some row) :
    ∃ row', (c.run calls).storage.store.get? key = some row' ∧ row'.createdAt = row.createdAt := by
  apply run_induction_of_mem (P := fun c' => ∃ row', c'.storage.store.get? key = some row' ∧
    row'.createdAt = row.createdAt) ⟨row, hrow, rfl⟩
  rintro c' call hmem ⟨row', hrow', htime⟩
  have hcall : ∀ rows, call ≠ .restore rows := by
    rintro rows rfl
    exact hcalls rows hmem
  obtain ⟨ledger, hledger⟩ := c'.storage.perform_table hcall
  have haccounts := Ledger.accounts_of_writeAll hledger key
  have hbefore : c'.storage.store.table.get? key = some row' := hrow'
  rw [hbefore] at haccounts
  obtain ⟨row'', hrow'', htime'⟩ := haccounts.stays
  exact ⟨row'', hrow'', htime'.trans htime⟩

end Chronicle

end Saga
