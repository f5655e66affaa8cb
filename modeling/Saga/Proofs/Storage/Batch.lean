import Saga.Delivery
import Saga.Proofs.Storage.Admission

/-!
# Batches

A batch is committed as a whole, yet it comes to what its writes come to when each is committed
alone, one after the other (`Store.commit_one_by_one`): it is taken when all of them are, the rows
are then the same but for the clock, and otherwise it is refused with the error of the first that is
not taken.
-/

namespace Saga

/-- Whether two rows are one row but for the clock: where their times differ, the first has `now`
and the second one of `times`. -/
structure StoredInstance.AgreesUpTo (now : Timestamp) (times : List Timestamp)
    (row row' : StoredInstance) : Prop where
  record : row.record = row'.record
  createdAt : row.createdAt = row'.createdAt ∨ row.createdAt = now ∧ row'.createdAt ∈ times
  updatedAt : row.updatedAt = row'.updatedAt ∨ row.updatedAt = now ∧ row'.updatedAt ∈ times

namespace InstanceTable

/-- Whether two tables agree row by row but for the clock. -/
def AgreesUpTo (now : Timestamp) (times : List Timestamp) (t t' : InstanceTable) : Prop :=
  ∀ key, Option.Rel (StoredInstance.AgreesUpTo now times) (t.get? key) (t'.get? key)

variable {now : Timestamp} {times : List Timestamp} {t t' : InstanceTable}

/-- A table agrees with itself. -/
lemma agreesUpTo_refl (now : Timestamp) (times : List Timestamp) (t : InstanceTable) :
    t.AgreesUpTo now times t := by
  intro key
  cases t.get? key with
  | none => exact .none
  | some row => exact .some ⟨rfl, .inl rfl, .inl rfl⟩

/-- Tables that agree but for the clock have the same versions. -/
lemma AgreesUpTo.version? (h : t.AgreesUpTo now times t') (key : InstanceKey) :
    t.version? key = t'.version? key := by
  unfold InstanceTable.version?
  have hrow := h key
  generalize t.get? key = row at hrow
  generalize t'.get? key = row' at hrow
  cases hrow with
  | none => rfl
  | some hagrees => exact congrArg (fun r => some r.version) hagrees.record

/-- Tables agree after the same write, made at one of the times and at `now`. -/
lemma AgreesUpTo.applyWrite (h : t.AgreesUpTo now times t') (p : Posting) (htime : p.time ∈ times) :
    (Store.applyWrite now t p.write).AgreesUpTo now times
      (Store.applyWrite p.time t' p.write) := by
  intro key
  have hrow := h key
  cases p.write with
  | add record =>
    by_cases hkey : record.key = key
    · simp only [Store.applyWrite, get?_put, hkey, if_true]
      exact .some ⟨rfl, .inr ⟨rfl, htime⟩, .inr ⟨rfl, htime⟩⟩
    · simp only [Store.applyWrite, get?_put, hkey, if_false]
      exact hrow
  | update record =>
    by_cases hkey : record.key = key
    · simp only [Store.applyWrite, get?_advance, hkey, if_true]
      generalize t.get? key = row at hrow
      generalize t'.get? key = row' at hrow
      cases hrow with
      | none => exact .none
      | some hagrees =>
        -- Moving a row on keeps the time at which it was created.
        refine .some ⟨?_, hagrees.createdAt, .inr ⟨rfl, htime⟩⟩
        simp only [StoredInstance.advanced, hagrees.record]
    · simp only [Store.applyWrite, get?_advance, hkey, if_false]
      exact hrow

/-- Tables that agree take the same writes, and agree after them. -/
lemma AgreesUpTo.writeAll (options : StoreOptions) (h : t.AgreesUpTo now times t')
    {postings : List Posting} (htimes : ∀ p ∈ postings, p.time ∈ times) :
    (∃ e, t.writeAll options (postings.map fun p => ⟨now, p.write⟩) = .error e ∧
        t'.writeAll options postings = .error e) ∨
      ∃ u u', t.writeAll options (postings.map fun p => ⟨now, p.write⟩) = .ok u ∧
        t'.writeAll options postings = .ok u' ∧ u.AgreesUpTo now times u' := by
  induction postings generalizing t t' with
  | nil => exact .inr ⟨t, t', rfl, rfl, h⟩
  | cons p rest ih =>
    rw [List.map_cons, writeAll_cons, writeAll_cons, write, write, h.version?]
    cases p.write.judge options (t'.version? p.write.record.key) with
    | error e => exact .inl ⟨e, rfl, rfl⟩
    | ok version =>
      have hp : p.time ∈ times := htimes p List.mem_cons_self
      have hrest : ∀ q ∈ rest, q.time ∈ times := fun q hq => htimes q (List.mem_cons_of_mem p hq)
      exact ih (h.applyWrite p hp) hrest

end InstanceTable

namespace Store

variable {s : Store}

/-- Commits writes one after the other, each in a batch of its own. -/
def commitEach (s : Store) (postings : List Posting) : Except StoreError Store :=
  postings.foldlM (fun s p => s.commit p.time [p.write] []) s

/-- Writes are committed one at a time as long as the store takes them. -/
lemma commitEach_cons (p : Posting) (postings : List Posting) :
    s.commitEach (p :: postings) =
      match s.commit p.time [p.write] [] with
      | .ok s' => s'.commitEach postings
      | .error e => .error e := by
  simp only [commitEach, List.foldlM_cons, bind, Except.bind]
  cases s.commit p.time [p.write] [] <;> rfl

/-- A batch of one write admits and makes that write. -/
lemma commit_single (s : Store) (p : Posting) :
    s.commit p.time [p.write] [] =
      (s.table.write s.options p).map fun table => { s with table, commits := s.commits + 1 } := by
  have hone : s.table.writeAll s.options [p] = s.table.write s.options p := by
    rw [InstanceTable.writeAll_cons]
    cases s.table.write s.options p <;> rfl
  rw [commit_eq_writeAll, List.map_singleton, hone, List.append_nil]

/-- Commits of single writes make these writes in the table and count one each. -/
lemma commitEach_eq_writeAll (s : Store) (postings : List Posting) :
    s.commitEach postings =
      (s.table.writeAll s.options postings).map fun table =>
        { s with table, commits := s.commits + postings.length } := by
  induction postings generalizing s with
  | nil => rfl
  | cons p rest ih =>
    rw [commitEach_cons, commit_single, InstanceTable.writeAll_cons]
    cases s.table.write s.options p with
    | error e => rfl
    | ok table =>
      simp only [Except.map]
      rw [ih, List.length_cons, Nat.add_assoc, Nat.add_comm 1]
      rfl

/-- One after the other, writes fail with the first of them that is refused by what the writes
before it have left. -/
lemma commitEach_eq_error_iff {postings : List Posting} {e : StoreError} :
    s.commitEach postings = .error e ↔
      ∃ before p rest mid, postings = before ++ p :: rest ∧ s.commitEach before = .ok mid ∧
        mid.commit p.time [p.write] [] = .error e := by
  induction postings generalizing s with
  | nil =>
    constructor
    · intro h
      cases h
    · rintro ⟨before, p, rest, mid, hsplit, -⟩
      exact absurd hsplit (by simp)
  | cons p rest ih =>
    rw [commitEach_cons]
    constructor
    · intro h
      cases hfirst : s.commit p.time [p.write] [] with
      | error e' =>
        rw [hfirst] at h
        cases h
        exact ⟨[], p, rest, s, rfl, rfl, hfirst⟩
      | ok s' =>
        rw [hfirst] at h
        obtain ⟨before, q, rest', mid, rfl, hbefore, hq⟩ := ih.1 h
        refine ⟨p :: before, q, rest', mid, rfl, ?_, hq⟩
        rw [commitEach_cons, hfirst]
        exact hbefore
    · rintro ⟨before, q, rest', mid, hsplit, hbefore, hq⟩
      cases before with
      | nil =>
        cases hsplit
        cases hbefore
        rw [hq]
      | cons p' before =>
        cases hsplit
        rw [commitEach_cons] at hbefore
        cases hfirst : s.commit p.time [p.write] [] with
        | error e' =>
          rw [hfirst] at hbefore
          cases hbefore
        | ok s' =>
          rw [hfirst] at hbefore
          exact ih.2 ⟨before, q, rest', mid, rfl, hbefore, hq⟩

/-- A batch and the same writes committed one after the other are refused with the same error, or
both are taken and leave rows that agree. -/
lemma commit_or_commitEach (s : Store) (now : Timestamp) (postings : List Posting)
    (messages : List Envelope) :
    (∃ e, s.commit now (postings.map Posting.write) messages = .error e ∧
        s.commitEach postings = .error e) ∨
      ∃ after single, s.commit now (postings.map Posting.write) messages = .ok after ∧
        s.commitEach postings = .ok single ∧
        after.table.AgreesUpTo now (postings.map Posting.time) single.table := by
  have hmap : (postings.map Posting.write).map (Posting.mk now) =
      postings.map fun p => ⟨now, p.write⟩ := List.map_map
  have htimes : ∀ p ∈ postings, p.time ∈ postings.map Posting.time :=
    fun p hp => List.mem_map_of_mem hp
  rw [commit_eq_writeAll, hmap, commitEach_eq_writeAll]
  rcases (InstanceTable.agreesUpTo_refl now _ s.table).writeAll s.options htimes with
    ⟨e, hbatch, heach⟩ | ⟨t, t', hbatch, heach, hagrees⟩
  · rw [hbatch, heach]
    exact .inl ⟨e, rfl, rfl⟩
  · rw [hbatch, heach]
    exact .inr ⟨_, _, rfl, rfl, hagrees⟩

/-- The versions that were checked for a batch are those that its rows have in the end. -/
lemma versions_of_commit {after : Store} {now : Timestamp} {writes : List StagedWrite}
    {messages : List Envelope} (h : s.commit now writes messages = .ok after) :
    ∃ pending, s.checkAll Keyed.empty writes = .ok pending ∧
      ∀ key, s.versionAfter? pending key = (after.get? key).map fun row => row.record.version := by
  obtain ⟨⟨pending, hcheck⟩, rfl⟩ := commit_eq_ok_iff.1 h
  refine ⟨pending, hcheck, ?_⟩
  rcases checkAll_cases s.foresees_empty now writes with ⟨e, herror, -⟩ | ⟨_, hok, -, hforesees⟩
  · cases herror.symm.trans hcheck
  · cases hok.symm.trans hcheck
    exact hforesees

/-- Each update of a batch that fits finds the row that it moves on. -/
lemma exists_row_of_checkAll {pending pending' : Pending} {table : InstanceTable}
    (h : s.Foresees pending table) (now : Timestamp) {writes before rest : List StagedWrite}
    {record : InstanceRecord} (hcheck : s.checkAll pending writes = .ok pending')
    (hsplit : writes = before ++ .update record :: rest) :
    ((applyAll now table before).get? record.key).isSome := by
  subst hsplit
  rcases checkAll_cases h now (before ++ .update record :: rest) with
    ⟨e, herror, -⟩ | ⟨_, -, hwrite, -⟩
  · cases herror.symm.trans hcheck
  · rw [List.map_append] at hwrite
    obtain ⟨mid, hmid, hrest⟩ := InstanceTable.writeAll_append_eq_ok_iff.1 hwrite
    rcases checkAll_cases h now before with ⟨e, -, hbefore⟩ | ⟨_, -, hbefore, -⟩
    · cases hbefore.symm.trans hmid
    · cases hbefore.symm.trans hmid
      simp only [List.map_cons, InstanceTable.writeAll_cons, InstanceTable.write,
        StagedWrite.judge, StagedWrite.record, InstanceTable.version?] at hrest
      -- Where there is no row an update does not fit.
      cases hrow : (applyAll now table before).get? record.key with
      | none =>
        rw [hrow] at hrest
        cases hrest
      | some row => rfl

/-- A delivery whose batch the store refuses stays as it was. -/
lemma delivery_unchanged {σ M : Type} {now : Timestamp} {writes : List StagedWrite}
    {messages : List Envelope} {e : StoreError} (h : s.commit now writes messages = .error e)
    {d : Delivery σ M} (hstore : d.store = s) (hnow : d.now = now)
    (hsession : d.session = { writes, messages }) (hlive : d.cancelled = false) :
    Delivery.commit d = .error e.toEngine d := by
  subst hstore hnow
  have hrefused : Session.commit { writes, messages } d.store false d.now = .error e.toEngine := by
    simp [Session.commit, checkLive, Session.checkOpen, h, bind, Except.bind, throw, throwThe,
      MonadExceptOf.throw]
  rw [Delivery.commit_apply, hsession, hlive, hrefused]

/-- A batch comes to what its writes come to when they are committed one after the other. It is
taken when all of them are, and then the rows agree but for the clock, the versions that were
checked are those that the rows have, and every update has found its row. Otherwise it is refused
with the error of the first write that is, and the delivery that commits it stays as it was. -/
theorem commit_one_by_one {σ M : Type} (s : Store) (now : Timestamp) (postings : List Posting)
    (messages : List Envelope) :
    let writes := postings.map Posting.write
    ((∃ after, s.commit now writes messages = .ok after) ↔
        ∃ single, s.commitEach postings = .ok single) ∧
      (∀ after single, s.commit now writes messages = .ok after →
        s.commitEach postings = .ok single →
          after.table.AgreesUpTo now (postings.map Posting.time) single.table ∧
          (∃ pending, s.checkAll Keyed.empty writes = .ok pending ∧
            ∀ key, s.versionAfter? pending key =
              (after.get? key).map fun row => row.record.version) ∧
          ∀ before record rest, writes = before ++ .update record :: rest →
            ((applyAll now s.table before).get? record.key).isSome) ∧
      (∀ e, s.commit now writes messages = .error e ↔
        ∃ before p rest mid, postings = before ++ p :: rest ∧ s.commitEach before = .ok mid ∧
          mid.commit p.time [p.write] [] = .error e) ∧
      ∀ e, s.commit now writes messages = .error e → ∀ d : Delivery σ M, d.store = s →
        d.now = now → d.session = { writes, messages } → d.cancelled = false →
          Delivery.commit d = .error e.toEngine d := by
  intro writes
  have hboth := s.commit_or_commitEach now postings messages
  refine ⟨?taken, ?rows, ?refused, ?unchanged⟩
  case taken =>
    rcases hboth with ⟨e, hbatch, heach⟩ | ⟨after, single, hbatch, heach, -⟩
    · simp [writes, hbatch, heach]
    · simp [writes, hbatch, heach]
  case rows =>
    intro after single hafter hsingle
    refine ⟨?_, versions_of_commit hafter, ?_⟩
    · rcases hboth with ⟨e, hbatch, -⟩ | ⟨after', single', hbatch, heach, hagrees⟩
      · cases hbatch.symm.trans hafter
      · cases hbatch.symm.trans hafter
        cases heach.symm.trans hsingle
        exact hagrees
    · intro before record rest hsplit
      obtain ⟨pending, hcheck, -⟩ := versions_of_commit hafter
      exact exists_row_of_checkAll s.foresees_empty now hcheck hsplit
  case refused =>
    intro e
    rw [← commitEach_eq_error_iff]
    rcases hboth with ⟨e', hbatch, heach⟩ | ⟨after, single, hbatch, heach, -⟩
    · simp [writes, hbatch, heach]
    · simp [writes, hbatch, heach]
  case unchanged =>
    intro e herror d hstore hnow hsession hlive
    exact delivery_unchanged herror hstore hnow hsession hlive

end Store

end Saga
