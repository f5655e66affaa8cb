import Mathlib.Data.List.Induction
import Saga.Proofs.Storage.Admission
import Saga.Proofs.Storage.Landing

/-!
# The ledger of a store

Every batch that a store has taken was a list of writes, and its rows are what these writes have
made one after the other. So the rows can be read off the ledger of all of them: the postings to one
row begin with the one that added it, the rest are updates, and the version counts them
(`Ledger.Accounts`). What that comes to for the rows of a table that was empty at first is what its
ledger explains (`Ledger.Explains`).
-/

namespace Saga

/-- Whether a write adds the row under a key. -/
def StagedWrite.addsTo (key : InstanceKey) : StagedWrite → Bool
  | .add record => record.key = key
  | .update _ => false

namespace InstanceTable

variable {options : StoreOptions} {t t' : InstanceTable} {p : Posting}

/-- A write that is made adds a row where there was none, or moves on the row that is there, from
the version that the write carries if versions count. -/
lemma write_cases (h : t.write options p = .ok t') :
    (∃ record, p.write = .add record ∧ t.get? record.key = none ∧
      t' = t.put (Store.added p.time record)) ∨
    ∃ record row, p.write = .update record ∧ t.get? record.key = some row ∧
      (options.optimisticConcurrency = true → record.version = row.record.version) ∧
      t' = t.advance p.time record.key record.state := by
  obtain ⟨⟨version, hjudge⟩, rfl⟩ := write_eq_ok_iff.1 h
  obtain ⟨now, write⟩ := p
  cases write with
  | add record =>
    cases hrow : t.get? record.key with
    | none => exact .inl ⟨record, rfl, hrow, rfl⟩
    | some row => simp [StagedWrite.judge, StagedWrite.record, version?, hrow] at hjudge
  | update record =>
    cases hrow : t.get? record.key with
    | none => simp [StagedWrite.judge, StagedWrite.record, version?, hrow] at hjudge
    | some row =>
      refine .inr ⟨record, row, rfl, hrow, ?_, rfl⟩
      intro hoptimistic
      by_contra hversion
      simp [StagedWrite.judge, StagedWrite.record, version?, hrow, hoptimistic,
        Ne.symm hversion] at hjudge

/-- Writes that were all made were made up to the last one, and then that one. -/
lemma writeAll_concat_eq_ok {ledger : List Posting}
    (h : t.writeAll options (ledger ++ [p]) = .ok t') :
    ∃ mid, t.writeAll options ledger = .ok mid ∧ mid.write options p = .ok t' := by
  obtain ⟨mid, hmid, hlast⟩ := writeAll_append_eq_ok_iff.1 h
  refine ⟨mid, hmid, ?_⟩
  rw [writeAll_cons] at hlast
  split at hlast
  · next after hwrite =>
    cases hlast
    exact hwrite
  · cases hlast

end InstanceTable

/-- The writes that were made, the oldest first. -/
abbrev Ledger := List Posting

namespace Ledger

/-- The postings to the row under a key. -/
def writesTo (ledger : Ledger) (key : InstanceKey) : List Posting :=
  ledger.filter fun p => p.write.record.key = key

/-- How often the row under a key was added. -/
def additions (ledger : Ledger) (key : InstanceKey) : Nat :=
  ledger.countP fun p => p.write.addsTo key

/-- What postings to one row make of it, when `start` is the row that was there at first. -/
inductive Accounts (options : StoreOptions) (start : Option StoredInstance) :
    List Posting → Option StoredInstance → Prop where
  | nothing : Accounts options start [] start
  | added {postings now record} :
    Accounts options start postings none →
    Accounts options start (postings ++ [⟨now, .add record⟩]) (some (Store.added now record))
  | updated {postings row now record} :
    Accounts options start postings (some row) →
    (options.optimisticConcurrency = true → record.version = row.record.version) →
    Accounts options start (postings ++ [⟨now, .update record⟩])
      (some (row.advanced now record.state))

variable {options : StoreOptions} {start last : Option StoredInstance} {postings : List Posting}

namespace Accounts

/-- A row that is there does not go away. -/
lemma last_eq_none (h : Accounts options start postings last) :
    last = none ↔ postings = [] ∧ start = none := by
  cases h with
  | nothing => simp
  | added _ => simp
  | updated _ _ => simp

/-- The version of a row is raised by one for each write to it. -/
lemma version (h : Accounts options start postings last) :
    (last.map fun row => row.record.version).getD 0 =
      (start.map fun row => row.record.version).getD 0 + postings.length := by
  induction h with
  | nothing => rfl
  | added h ih =>
    obtain ⟨rfl, rfl⟩ := h.last_eq_none.1 rfl
    rfl
  | updated _ _ ih =>
    simp only [Option.map_some, Option.getD_some, StoredInstance.advanced, List.length_append,
      List.length_singleton] at ih ⊢
    omega

/-- The last posting has left the row in its state. -/
lemma state {p : Posting} (h : Accounts options start postings last)
    (hlast : postings.getLast? = some p) :
    ∃ row, last = some row ∧ row.record.state = p.write.record.state := by
  cases h with
  | nothing => cases hlast
  | added _ =>
    rw [List.getLast?_concat] at hlast
    cases hlast
    exact ⟨_, rfl, rfl⟩
  | updated _ _ =>
    rw [List.getLast?_concat] at hlast
    cases hlast
    exact ⟨_, rfl, rfl⟩

/-- If versions count, an update that was posted carried the version that the row had. -/
lemma carried (h : Accounts options start postings last)
    (hoptimistic : options.optimisticConcurrency = true) {before after : List Posting}
    {now : Timestamp} {record : InstanceRecord}
    (hpostings : postings = before ++ ⟨now, .update record⟩ :: after) :
    record.version = (start.map fun row => row.record.version).getD 0 + before.length := by
  induction h generalizing after with
  | nothing => simp at hpostings
  | @added earlier _ _ _ ih =>
    -- The last posting is no update, so the update is among the earlier ones.
    rcases List.eq_nil_or_concat after with rfl | ⟨middle, p, rfl⟩
    · obtain ⟨-, hp⟩ := List.append_inj' hpostings rfl
      cases hp
    · rw [List.concat_eq_append, ← List.cons_append, ← List.append_assoc] at hpostings
      exact ih (List.append_inj' hpostings rfl).1
  | @updated earlier row _ _ hearlier hversion ih =>
    rcases List.eq_nil_or_concat after with rfl | ⟨middle, p, rfl⟩
    · obtain ⟨rfl, hp⟩ := List.append_inj' hpostings rfl
      cases hp
      rw [hversion hoptimistic, ← hearlier.version]
      rfl
    · rw [List.concat_eq_append, ← List.cons_append, ← List.append_assoc] at hpostings
      exact ih (List.append_inj' hpostings rfl).1

/-- The row was created by the posting that added it. -/
lemma created {row : StoredInstance} (h : Accounts options none postings (some row)) :
    ∃ p ∈ postings, (∃ record, p.write = .add record) ∧ p.time = row.createdAt := by
  generalize hlast : some row = last at h
  induction h generalizing row with
  | nothing => cases hlast
  | @added _ now record _ _ =>
    cases hlast
    exact ⟨⟨now, .add record⟩, by simp, ⟨record, rfl⟩, rfl⟩
  | updated _ _ ih =>
    cases hlast
    obtain ⟨p, hp, hadd, htime⟩ := ih rfl
    exact ⟨p, List.mem_append_left _ hp, hadd, htime⟩

/-- Without postings a row is what it was at first. -/
lemma of_nil (h : Accounts options start [] last) : last = start := by
  generalize hpostings : ([] : List Posting) = postings at h
  cases h with
  | nothing => rfl
  | added _ => simp at hpostings
  | updated _ _ => simp at hpostings

/-- A row that was there at first stays, and is as old as it was. -/
lemma stays {row : StoredInstance} (h : Accounts options (some row) postings last) :
    ∃ row', last = some row' ∧ row'.createdAt = row.createdAt := by
  induction h with
  | nothing => exact ⟨row, rfl, rfl⟩
  | added h _ =>
    obtain ⟨-, hnone⟩ := h.last_eq_none.1 rfl
    cases hnone
  | updated _ _ ih =>
    obtain ⟨row', hrow', htime⟩ := ih
    cases hrow'
    exact ⟨_, rfl, htime⟩

/-- No row is added twice, and none is added that was there at first. -/
lemma additions_le (h : Accounts options start postings last) (key : InstanceKey) :
    Ledger.additions postings key ≤ if start = none then 1 else 0 := by
  induction h with
  | nothing => simp [additions]
  | added h _ =>
    -- The row was not there, so nothing had been posted to it.
    obtain ⟨rfl, rfl⟩ := h.last_eq_none.1 rfl
    simp only [additions, List.nil_append, if_true]
    exact List.countP_le_length
  | updated _ _ ih =>
    simpa [additions, StagedWrite.addsTo] using ih

/-- What begins with the adding of a row begins without that row. -/
lemma start_eq_none {now : Timestamp} {record : InstanceRecord}
    (h : Accounts options start (⟨now, .add record⟩ :: postings) last) : start = none := by
  have hle := h.additions_le record.key
  cases start with
  | none => rfl
  | some row => simp [additions, StagedWrite.addsTo] at hle

end Accounts

/-- What is added to a row is posted to it. -/
lemma additions_writesTo (ledger : Ledger) (key : InstanceKey) :
    Ledger.additions (ledger.writesTo key) key = ledger.additions key := by
  unfold additions writesTo
  rw [List.countP_filter]
  apply List.countP_congr
  intro p _
  cases hw : p.write with
  | add record => simp +contextual [StagedWrite.addsTo, StagedWrite.record]
  | update record => simp [StagedWrite.addsTo]

/-- One more write is one more posting to its own row. -/
lemma writesTo_concat (ledger : Ledger) (p : Posting) (key : InstanceKey) :
    Ledger.writesTo (ledger ++ [p]) key =
      if p.write.record.key = key then ledger.writesTo key ++ [p] else ledger.writesTo key := by
  unfold writesTo
  rw [List.filter_append]
  split
  · next hkey => simp [hkey]
  · next hkey => simp [hkey]

/-- A row stays accounted for when a write is made, be it to this row or to another one. -/
lemma Accounts.write {t t' : InstanceTable} {key : InstanceKey} {p : Posting}
    (h : Accounts options start postings (t.get? key)) (hwrite : t.write options p = .ok t') :
    Accounts options start (if p.write.record.key = key then postings ++ [p] else postings)
      (t'.get? key) := by
  obtain ⟨now, write⟩ := p
  rcases InstanceTable.write_cases hwrite with
    ⟨record, hadd, hrow, rfl⟩ | ⟨record, row, hupdate, hrow, hversion, rfl⟩
  · cases hadd
    have hget := InstanceTable.get?_put t (Store.added now record) key
    split
    · next hkey =>
      have hkey : record.key = key := hkey
      subst hkey
      rw [hrow] at h
      rw [hget]
      simpa [Store.added] using h.added
    · next hkey =>
      rw [hget, if_neg]
      · exact h
      · exact hkey
  · cases hupdate
    have hget := InstanceTable.get?_advance t now record.key key record.state
    split
    · next hkey =>
      have hkey : record.key = key := hkey
      subst hkey
      rw [hrow] at h
      rw [hget, if_pos rfl, hrow]
      exact .updated h hversion
    · next hkey =>
      rw [hget, if_neg]
      · exact h
      · exact hkey

/-- The rows of a table that was written to one write after the other are accounted for. -/
lemma accounts_of_writeAll {t t' : InstanceTable} {ledger : Ledger}
    (h : t.writeAll options ledger = .ok t') (key : InstanceKey) :
    Accounts options (t.get? key) (ledger.writesTo key) (t'.get? key) := by
  induction ledger using List.reverseRecOn generalizing t' with
  | nil =>
    cases h
    exact .nothing
  | append_singleton ledger p ih =>
    obtain ⟨mid, hmid, hwrite⟩ := InstanceTable.writeAll_concat_eq_ok h
    rw [writesTo_concat]
    exact (ih hmid).write hwrite

/-- What a ledger says of the rows of a table. -/
structure Explains (options : StoreOptions) (ledger : Ledger) (t : InstanceTable) : Prop where
  /-- There is a row when one was added. -/
  added : ∀ key, (t.get? key).isSome ↔ ∃ p ∈ ledger, p.write.addsTo key
  single : ∀ key, ledger.additions key ≤ 1
  version : ∀ key row, t.get? key = some row → row.record.version = (ledger.writesTo key).length
  state : ∀ key row, t.get? key = some row →
    ∃ p, (ledger.writesTo key).getLast? = some p ∧ row.record.state = p.write.record.state
  created : ∀ key row, t.get? key = some row →
    ∃ p ∈ ledger, p.write.addsTo key ∧ p.time = row.createdAt
  /-- If versions count, every update carried the number of the writes before it. -/
  carried : options.optimisticConcurrency = true → ∀ before now record after,
    ledger = before ++ ⟨now, .update record⟩ :: after →
      record.version = (Ledger.writesTo before record.key).length

/-- Writes that were made one after the other explain the rows that they have left. -/
lemma explains_of_writeAll {ledger : Ledger} {t : InstanceTable}
    (h : InstanceTable.empty.writeAll options ledger = .ok t) : ledger.Explains options t := by
  have haccounts : ∀ key, Accounts options none (ledger.writesTo key) (t.get? key) :=
    accounts_of_writeAll h
  have hadds : ∀ key (p : Posting), p ∈ ledger.writesTo key → (∃ record, p.write = .add record) →
      p ∈ ledger ∧ p.write.addsTo key := by
    rintro key p hp ⟨record, hrecord⟩
    obtain ⟨hmem, hkey⟩ := List.mem_filter.1 hp
    refine ⟨hmem, ?_⟩
    rw [hrecord] at hkey ⊢
    exact hkey
  have hcreated : ∀ key row, t.get? key = some row →
      ∃ p ∈ ledger, p.write.addsTo key ∧ p.time = row.createdAt := by
    intro key row hrow
    have hkey := haccounts key
    rw [hrow] at hkey
    obtain ⟨p, hp, hadd, htime⟩ := hkey.created
    obtain ⟨hmem, hadds⟩ := hadds key p hp hadd
    exact ⟨p, hmem, hadds, htime⟩
  refine ⟨?added, ?single, ?version, ?state, hcreated, ?carried⟩
  case added =>
    intro key
    constructor
    · intro hsome
      obtain ⟨row, hrow⟩ := Option.isSome_iff_exists.1 hsome
      obtain ⟨p, hmem, hadd, -⟩ := hcreated key row hrow
      exact ⟨p, hmem, hadd⟩
    · rintro ⟨p, hmem, hadd⟩
      rw [← Option.ne_none_iff_isSome, Ne, (haccounts key).last_eq_none]
      rintro ⟨hnothing, -⟩
      have hp : p ∈ ledger.writesTo key := by
        refine List.mem_filter.2 ⟨hmem, ?_⟩
        cases hw : p.write with
        | add record =>
          rw [hw] at hadd
          exact hadd
        | update record =>
          rw [hw] at hadd
          cases hadd
      rw [hnothing] at hp
      cases hp
  case single =>
    intro key
    rw [← additions_writesTo]
    exact (haccounts key).additions_le key
  case version =>
    intro key row hrow
    have hversion := (haccounts key).version
    rw [hrow] at hversion
    simpa using hversion
  case state =>
    intro key row hrow
    have hkey := haccounts key
    rw [hrow] at hkey
    have hposted : ledger.writesTo key ≠ [] := by
      intro hnothing
      cases hkey.last_eq_none.2 ⟨hnothing, rfl⟩
    have hp := List.getLast?_eq_some_getLast hposted
    obtain ⟨row', hrow', hstate⟩ := hkey.state hp
    cases hrow'
    exact ⟨_, hp, hstate⟩
  case carried =>
    intro hoptimistic before now record after hledger
    have hkey : ledger.writesTo record.key =
        Ledger.writesTo before record.key ++
          ⟨now, .update record⟩ :: Ledger.writesTo after record.key := by
      simp [hledger, writesTo, StagedWrite.record]
    have hversion := (haccounts record.key).carried hoptimistic hkey
    simpa using hversion

end Ledger

namespace Store

variable {s after : Store} {now : Timestamp} {writes : List StagedWrite} {messages : List Envelope}

/-- What a batch that is taken makes of a row are its writes to it. -/
lemma accounts_of_commit (h : s.commit now writes messages = .ok after) (key : InstanceKey) :
    ∃ postings, postings.map Posting.write = writes.filter (fun w => w.record.key = key) ∧
      Ledger.Accounts s.options (s.get? key) postings (after.get? key) := by
  obtain ⟨hmade, -⟩ := writeAll_of_commit h
  refine ⟨_, ?_, Ledger.accounts_of_writeAll hmade key⟩
  unfold Ledger.writesTo
  rw [List.filter_map, List.map_map]
  simp [Function.comp_def]

/-- The last write of a batch to a row leaves it in its state. -/
lemma state_of_commit {key : InstanceKey} {w : StagedWrite}
    (h : s.commit now writes messages = .ok after)
    (hlast : (writes.filter fun w => w.record.key = key).getLast? = some w) :
    ∃ row, after.get? key = some row ∧ row.record.state = w.record.state := by
  obtain ⟨postings, hpostings, haccounts⟩ := accounts_of_commit h key
  rw [← hpostings, List.getLast?_map] at hlast
  obtain ⟨p, hp, rfl⟩ := Option.map_eq_some_iff.1 hlast
  exact haccounts.state hp

end Store

end Saga
