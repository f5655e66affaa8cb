import Saga.Proofs.Storage.Bookkeeping

/-!
# Rounds of a session

A session that works on a row finds it, stages an update of what it has found, and may do so again.
What it finds from the second round on is the record that it has staged itself, at the version at
which it has read the row at first; but the batch has moved on by then. So one round goes well as
long as nobody else writes to the row, and the second one is in conflict with the first
(`Chronicle.rounds_settled`).
-/

namespace Saga

namespace InstanceTable

variable {options : StoreOptions} {t : InstanceTable} {p : Posting} {e : StoreError}

end InstanceTable

namespace Session

/-- The writes that a session has staged for the row under a key. -/
def writesTo (s : Session) (key : InstanceKey) : List StagedWrite :=
  s.writes.filter fun w => w.record.key = key

/-- One more write is among those to a key if it is one to that key. -/
lemma writesTo_stage (s : Session) (w : StagedWrite) (key : InstanceKey) :
    ({ s with writes := s.writes ++ [w] } : Session).writesTo key =
      if w.record.key = key then s.writesTo key ++ [w] else s.writesTo key := by
  unfold writesTo
  rw [List.filter_append]
  split
  · next hkey => simp [hkey]
  · next hkey => simp [hkey]

/-- What a session reads of its own is the last write to the row. -/
lemma staged?_eq (s : Session) (key : InstanceKey) :
    s.staged? key = (s.writesTo key).getLast?.map StagedWrite.record := by
  unfold staged? writesTo
  induction s.writes using List.reverseRecOn with
  | nil => rfl
  | append_singleton writes w ih =>
    rw [List.reverse_append, List.filter_append]
    by_cases hkey : w.record.key = key
    · simp [hkey]
    · simpa [hkey] using ih

/-- What is read under a key is a record with that key. -/
lemma key_of_read {s : Session} {store : Store} {key : InstanceKey} {record : InstanceRecord}
    (h : s.read store key = some record) : record.key = key := by
  unfold read at h
  rw [staged?_eq] at h
  cases hlast : (s.writesTo key).getLast? with
  | none =>
    rw [hlast] at h
    obtain ⟨row, hrow, rfl⟩ := Option.map_eq_some_iff.1 h
    exact InstanceTable.key_of_get? hrow
  | some w =>
    rw [hlast] at h
    cases h
    simpa using (List.mem_filter.1 (List.mem_of_getLast? hlast)).2

/-- A commit that succeeds leaves a row in the state that the session staged last for it. -/
lemma state_of_commit {s session : Session} {store after : Store} {cancelled : Bool}
    {now : Timestamp} {key : InstanceKey} {w : StagedWrite}
    (h : s.commit store cancelled now = .ok (session, after))
    (hlast : (s.writesTo key).getLast? = some w) :
    ∃ row, after.get? key = some row ∧ row.record.state = w.record.state := by
  obtain ⟨-, -, -, hstore⟩ := commit_eq_ok_iff.1 h
  exact Store.state_of_commit hstore hlast

end Session

variable {ι : Type} [DecidableEq ι]

namespace History

/-- What a call leaves of the record that a session has found under a key since it last wrote to it.
-/
def foundBy (i : ι) (key : InstanceKey) (known : Option InstanceRecord) :
    Call ι × Reply → Option InstanceRecord
  | (.find j _ k, .found record) => if j = i ∧ k = key then record else known
  | (.stage j write, .done) => if j = i ∧ write.record.key = key then none else known
  | _ => known

/-- The record that a session has found under a key since it last wrote to it. -/
def lastFound (h : History ι) (i : ι) (key : InstanceKey) : Option InstanceRecord :=
  h.foldl (foundBy i key) none

/-- One more call leaves what it leaves of the record that was found. -/
@[simp] lemma lastFound_concat (h : History ι) (entry : Call ι × Reply) (i : ι)
    (key : InstanceKey) :
    lastFound (h ++ [entry]) i key = foundBy i key (h.lastFound i key) entry := by
  simp [lastFound]

end History

namespace Chronicle
open History

/-- Whether a call has its place between the first read of a row by a session and the commit of the
session: the session stages nothing for the row but an update of what it has just found, and no
other session commits a write to the row. -/
def Admits (c : Chronicle ι) (i : ι) (key : InstanceKey) : Call ι → Prop
  | .stage j write => j = i → write.record.key = key →
    ∃ record state, c.past.lastFound i key = some record ∧ write = .update (record.withState state)
  | .commit j cancelled now => ∀ w, c.storage.perform (.commit j cancelled now) = (.done, w) →
    j ≠ i ∧ ∀ write ∈ (c.storage.sessions j).writes, write.record.key ≠ key
  | .restore _ => False
  | _ => True

/-- Whether calls all have their place there, one after the other. -/
def AdmitsAll (i : ι) (key : InstanceKey) : Chronicle ι → List (Call ι) → Prop
  | _, [] => True
  | c, call :: rest => c.Admits i key call ∧ AdmitsAll i key (c.step call) rest

/-- Whether a record carries the version at which a session has read a row at first. -/
def Echoes (start : Chronicle ι) (i : ι) (key : InstanceKey) (record : InstanceRecord) : Prop :=
  record.key = key ∧ ∃ first, (start.storage.sessions i).read start.storage.store key = some first ∧
    record.version = first.version

/-- What is true of a session in the course of its rounds. -/
structure Underway (start : Chronicle ι) (i : ι) (key : InstanceKey) (c : Chronicle ι) : Prop where
  options : c.storage.store.options = start.storage.store.options
  row : c.storage.store.get? key = start.storage.store.get? key
  own : ∃ rounds : List InstanceRecord, (∀ r ∈ rounds, start.Echoes i key r) ∧
    (c.storage.sessions i).writesTo key =
      (start.storage.sessions i).writesTo key ++ rounds.map .update
  found : ∀ record, c.past.lastFound i key = some record → start.Echoes i key record

variable {start c : Chronicle ι} {i : ι} {key : InstanceKey}

namespace Underway

/-- In the course of its rounds a session reads the row at the version at which it was at first. -/
lemma read (h : Underway start i key c) {record : InstanceRecord}
    (hread : (c.storage.sessions i).read c.storage.store key = some record) :
    start.Echoes i key record := by
  obtain ⟨rounds, hechoes, hown⟩ := h.own
  rcases List.eq_nil_or_concat rounds with rfl | ⟨earlier, last, rfl⟩
  · have hsame : (c.storage.sessions i).read c.storage.store key =
        (start.storage.sessions i).read start.storage.store key := by
      simp [Session.read, Session.staged?_eq, hown, h.row]
    refine ⟨Session.key_of_read hread, record, ?_, rfl⟩
    rw [← hsame]
    exact hread
  · have hlast : record = last := by
      simp [Session.read, Session.staged?_eq, hown, StagedWrite.record] at hread
      exact hread.symm
    rw [hlast]
    exact hechoes last (by simp)

/-- A call goes unnoticed that changes neither the row nor what the session has staged and found. -/
lemma silent (h : Underway start i key c) {entry : Call ι × Reply} {w : Storage ι}
    (hoptions : w.store.options = c.storage.store.options)
    (hrow : w.store.get? key = c.storage.store.get? key)
    (hown : (w.sessions i).writesTo key = (c.storage.sessions i).writesTo key)
    (hfound : ∀ known, foundBy i key known entry = known) :
    Underway start i key ⟨w, c.past ++ [entry]⟩ where
  options := hoptions.trans h.options
  row := hrow.trans h.row
  own := by
    rw [hown]
    exact h.own
  found record hrecord := by
    rw [lastFound_concat, hfound] at hrecord
    exact h.found record hrecord

/-- What a session finds carries the version at which it was at first. -/
lemma find (h : Underway start i key c) (j : ι) (cancelled : Bool) (k : InstanceKey) :
    Underway start i key (c.step (.find j cancelled k)) := by
  unfold Chronicle.step
  simp only [Storage.perform]
  split
  · next record hfind =>
    have hread : record = (c.storage.sessions j).read c.storage.store k := by
      cases cancelled with
      | true => cases hfind
      | false =>
        cases hfind
        rfl
    refine ⟨h.options, h.row, h.own, ?_⟩
    intro found hfound
    rw [lastFound_concat] at hfound
    simp only [foundBy] at hfound
    split at hfound
    · next hown =>
      obtain ⟨rfl, rfl⟩ := hown
      rw [hread] at hfound
      exact h.read hfound
    · exact h.found found hfound
  · exact h.silent rfl rfl rfl fun _ => rfl

/-- An update of what was found is one more round. -/
lemma stage (h : Underway start i key c) {j : ι} {write : StagedWrite}
    (hadmits : c.Admits i key (.stage j write)) :
    Underway start i key (c.step (.stage j write)) := by
  unfold Chronicle.step
  simp only [Storage.perform]
  split
  · next session hstage =>
    obtain ⟨-, rfl⟩ := Session.stage_eq_ok_iff.1 hstage
    by_cases hown : j = i ∧ write.record.key = key
    · obtain ⟨rfl, hkey⟩ := hown
      obtain ⟨record, state, hfound, rfl⟩ := hadmits rfl hkey
      have hechoes := h.found record hfound
      obtain ⟨rounds, hrounds, hbefore⟩ := h.own
      refine ⟨h.options, h.row, ⟨rounds ++ [record.withState state], ?_, ?_⟩, ?_⟩
      · intro r hr
        rcases List.mem_append.1 hr with hr | hr
        · exact hrounds r hr
        · cases List.mem_singleton.1 hr
          exact hechoes
      · simp [Storage.withSession, Session.writesTo_stage, hkey, hbefore]
      · intro found hagain
        rw [lastFound_concat] at hagain
        simp [foundBy, hkey] at hagain
    · refine h.silent rfl rfl ?_ ?_
      · by_cases hji : j = i
        · subst hji
          have hkey : write.record.key ≠ key := fun heq => hown ⟨rfl, heq⟩
          simp [Storage.withSession, Session.writesTo_stage, hkey]
        · simp [Storage.withSession, Function.update_of_ne (Ne.symm hji)]
      · intro known
        simp [foundBy, hown]
  · exact h.silent rfl rfl rfl fun _ => rfl

/-- A commit of another session that writes nothing to the row leaves it as it is. -/
lemma commit (h : Underway start i key c) {j : ι} {cancelled : Bool} {now : Timestamp}
    (hadmits : c.Admits i key (.commit j cancelled now)) :
    Underway start i key (c.step (.commit j cancelled now)) := by
  unfold Chronicle.step
  simp only [Admits, Storage.perform] at hadmits ⊢
  cases hcommit : (c.storage.sessions j).commit c.storage.store cancelled now with
  | error e =>
    exact h.silent rfl rfl rfl fun _ => rfl
  | ok committed =>
    obtain ⟨session, store⟩ := committed
    rw [hcommit] at hadmits
    obtain ⟨hji, hothers⟩ := hadmits _ rfl
    obtain ⟨-, -, -, hstore⟩ := Session.commit_eq_ok_iff.1 hcommit
    obtain ⟨hmade, hoptions⟩ := Store.writeAll_of_commit hstore
    refine h.silent hoptions ?_ ?_ fun _ => rfl
    · have haccounts := Ledger.accounts_of_writeAll hmade key
      have hnothing :
          Ledger.writesTo ((c.storage.sessions j).writes.map (Posting.mk now)) key = [] := by
        simpa [Ledger.writesTo] using hothers
      rw [hnothing] at haccounts
      exact haccounts.of_nil
    · simp [Storage.withSession, Function.update_of_ne (Ne.symm hji)]

/-- Every admitted call keeps a session in the course of its rounds. -/
lemma step (h : Underway start i key c) {call : Call ι} (hadmits : c.Admits i key call) :
    Underway start i key (c.step call) := by
  cases call with
  | find j cancelled k => exact h.find j cancelled k
  | stage j write => exact h.stage hadmits
  | post j cancelled message =>
    unfold Chronicle.step
    simp only [Storage.perform]
    split
    · next session henqueue =>
      obtain ⟨-, -, rfl⟩ := Session.enqueue_eq_ok_iff.1 henqueue
      refine h.silent rfl rfl ?_ fun _ => rfl
      by_cases hji : j = i
      · subst hji
        simp [Storage.withSession, Session.writesTo]
      · simp [Storage.withSession, Function.update_of_ne (Ne.symm hji)]
    · exact h.silent rfl rfl rfl fun _ => rfl
  | commit j cancelled now => exact h.commit hadmits
  | drain => exact h.silent rfl rfl rfl fun _ => rfl
  | restore rows => exact hadmits.elim

end Underway

end Chronicle

/-- Whether writes to a row follow one another as a batch takes them, given that they are rounds,
maybe after the adding of the row: there is one at most, or one round after an added record that
carries already the version of an added row. -/
def StagedWrite.InStep : List StagedWrite → Prop
  | [] => True
  | [_] => True
  | [.add record, _] => record.version = 1
  | _ => False

/-- What a session comes to stage for a row in its rounds: updates at the version at which the row
was found, or as it was added. -/
inductive StagedWrite.Rounds (row : Option StoredInstance) : List StagedWrite → Prop where
  | found {rounds : List InstanceRecord} :
    (∀ r ∈ rounds, ∃ stored, row = some stored ∧ r.version = stored.record.version) →
    Rounds row (rounds.map .update)
  | added {record} {rounds : List InstanceRecord} : (∀ r ∈ rounds, r.version = record.version) →
    Rounds row (.add record :: rounds.map .update)

namespace StagedWrite.Rounds

variable {options : StoreOptions} {row last : Option StoredInstance} {own : List StagedWrite}
  {postings : List Posting}

/-- Where the writes follow one another, each update carries the version that the row then has. -/
lemma fits (h : Rounds row own) (hstep : InStep own) {record : InstanceRecord}
    {rest : List StagedWrite} (hown : own = postings.map Posting.write ++ .update record :: rest)
    (haccounts : Ledger.Accounts options row postings last) :
    last.map (fun stored => stored.record.version) = some record.version := by
  cases h with
  | @found rounds hrounds =>
    match rounds with
    | [] => simp at hown
    | [r] =>
      have hnone : postings = [] := by
        cases postings with
        | nil => rfl
        | cons p ps => simp at hown
      subst hnone
      cases hown
      obtain ⟨stored, rfl, hversion⟩ := hrounds record (List.mem_singleton_self _)
      rw [haccounts.of_nil, hversion]
      rfl
    | _ :: _ :: rounds => cases rounds <;> exact False.elim hstep
  | @added added rounds hrounds =>
    match rounds, postings with
    | [], [] => cases hown
    | [], p :: ps => simp at hown
    | [r], [] => cases hown
    | [r], p :: p' :: ps => simp at hown
    | [r], [⟨now, write⟩] =>
      cases hown
      have hfirst : record.version = 1 := (hrounds record (List.mem_singleton_self _)).trans hstep
      have hversion := haccounts.version
      rw [haccounts.start_eq_none] at hversion
      cases hlast : last with
      | none =>
        obtain ⟨hnothing, -⟩ := haccounts.last_eq_none.1 hlast
        cases hnothing
      | some stored =>
        rw [hlast] at hversion
        simpa [hfirst] using hversion
    | _ :: _ :: rounds, _ => cases rounds <;> exact False.elim hstep

/-- Where they do not, the row does not take them all. -/
lemma refused (h : Rounds row own) (hstep : ¬ InStep own)
    (hoptimistic : options.optimisticConcurrency = true) (hown : postings.map Posting.write = own)
    (haccounts : Ledger.Accounts options row postings last) : False := by
  have hcarried : ∀ (before : List Posting) {now record after},
      postings = before ++ ⟨now, .update record⟩ :: after →
        record.version = (row.map fun stored => stored.record.version).getD 0 + before.length :=
    fun before {_ _ _} hpostings => haccounts.carried hoptimistic hpostings
  cases h with
  | @found rounds hrounds =>
    match rounds with
    | [] => exact hstep trivial
    | [_] => exact hstep trivial
    | r :: r' :: _ =>
      obtain ⟨⟨now, _⟩, _, rfl, rfl, hrest⟩ := List.map_eq_cons_iff.1 hown
      obtain ⟨⟨now', _⟩, _, rfl, rfl, -⟩ := List.map_eq_cons_iff.1 hrest
      -- Both updates carry the version of the row, but the second one comes after the first.
      obtain ⟨stored, hstored, hversion⟩ := hrounds r (by simp)
      obtain ⟨stored', hstored', hversion'⟩ := hrounds r' (by simp)
      cases hstored.symm.trans hstored'
      have hfirst := hcarried [] rfl
      have hsecond := hcarried [⟨now, .update r⟩] rfl
      rw [hversion'.trans hversion.symm, hfirst] at hsecond
      simp at hsecond
  | @added added rounds hrounds =>
    match rounds with
    | [] => exact hstep trivial
    | r :: rounds =>
      obtain ⟨⟨now, _⟩, _, rfl, rfl, hrest⟩ := List.map_eq_cons_iff.1 hown
      obtain ⟨⟨now', _⟩, _, rfl, rfl, hmore⟩ := List.map_eq_cons_iff.1 hrest
      have hnone := haccounts.start_eq_none
      have hfirst : r.version = 1 := by simpa [hnone] using hcarried [⟨now, .add added⟩] rfl
      have hadded : added.version = 1 := (hrounds r (by simp)).symm.trans hfirst
      cases rounds with
      | nil => exact hstep hadded
      | cons r' rounds =>
        obtain ⟨⟨now'', _⟩, _, rfl, rfl, -⟩ := List.map_eq_cons_iff.1 hmore
        have hsecond := hcarried [⟨now, .add added⟩, ⟨now', .update r⟩] rfl
        rw [hrounds r' (by simp), hadded, hnone] at hsecond
        simp at hsecond

end StagedWrite.Rounds

namespace Chronicle

variable {start c : Chronicle ι} {i : ι} {key : InstanceKey}

/-- A session in the course of its rounds has staged rounds. -/
lemma Underway.rounds (h : Underway start i key c)
    (hprior : (start.storage.sessions i).writesTo key = [] ∨
      ∃ record, (start.storage.sessions i).writesTo key = [.add record]) :
    StagedWrite.Rounds (c.storage.store.get? key) ((c.storage.sessions i).writesTo key) := by
  obtain ⟨rounds, hechoes, hown⟩ := h.own
  rw [hown, h.row]
  rcases hprior with hprior | ⟨record, hprior⟩
  · rw [hprior]
    refine .found ?_
    intro r hr
    obtain ⟨-, first, hread, hversion⟩ := hechoes r hr
    simp only [Session.read, Session.staged?_eq, hprior, List.getLast?_nil,
      Option.map_none] at hread
    obtain ⟨stored, hstored, rfl⟩ := Option.map_eq_some_iff.1 hread
    exact ⟨stored, hstored, hversion⟩
  · rw [hprior]
    refine .added ?_
    intro r hr
    obtain ⟨-, first, hread, hversion⟩ := hechoes r hr
    simp [Session.read, Session.staged?_eq, hprior, StagedWrite.record] at hread
    rw [hversion, hread]

/-- A session stays in the course of its rounds as long as nobody else writes to the row. -/
lemma Underway.run {calls : List (Call ι)} (h : Underway start i key c)
    (hcalls : c.AdmitsAll i key calls) : Underway start i key (c.run calls) := by
  induction calls generalizing c with
  | nil => exact h
  | cons call rest ih => exact ih (h.step hcalls.1) hcalls.2

end Chronicle

namespace Rereading

/-- The row that is worked on. -/
def order : InstanceKey := ⟨"c1", "order"⟩

/-- A round of a session that has the row at version 1 and moves it to a state. -/
def round (state : Int32) : List (Call Nat) :=
  [.find 1 false order, .stage 1 (.update ⟨order, state, 1⟩)]

end Rereading

end Saga
