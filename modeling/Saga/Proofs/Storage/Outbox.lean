import Mathlib.Data.List.Basic
import Saga.Proofs.Storage.Chronicle

/-!
# The transactional outbox

Messages reach the outbox of a store with the commit of the session that accepted them, and in no
other way. `Accounted` ties a chronicle to the store it began with: what was handed out so far,
followed by the outbox, is what was there at first and then, commit by commit, all that each
committed session had accepted. Every call keeps it (`Accounted.step`), so it holds at every point
of every run, and a drain leaves nothing of what was committed (`drained_append_outbox`).

Two facts about the single session carry the step. While it is open it still holds whatever it
accepted; once it has committed it accepts nothing more, so later calls cannot change what its
commit stands for.
-/

namespace Saga.Chronicle
open History

variable {ι : Type} [DecidableEq ι]

/-- The messages and the commits of a chronicle are accounted for, the store having begun as
`start`. -/
structure Accounted (start : Store) (c : Chronicle ι) : Prop where
  conserved : c.past.drained ++ c.storage.store.outbox =
    start.outbox ++ c.past.committers.flatMap c.past.accepted
  counted : c.storage.store.commits = start.commits + c.past.committers.length
  /-- No session commits twice. -/
  nodup : c.past.committers.Nodup
  closed : ∀ i, (c.storage.sessions i).committed = true ↔ i ∈ c.past.committers
  /-- An open session holds what it accepted. -/
  held : ∀ i, (c.storage.sessions i).committed = false →
    (c.storage.sessions i).messages = c.past.accepted i
  /-- A session accepts nothing after its commit. -/
  final : ∀ before after i cancelled now,
    c.past = before ++ (.commit i cancelled now, .done) :: after → after.flatMap (acceptedBy i) = []

namespace Accounted

variable {start : Store} {c : Chronicle ι} {i : ι} {call : Call ι} {reply : Reply}

/-- Opening sessions takes nothing from a store. -/
lemma opened (start : Store) : Accounted start (Chronicle.opened start : Chronicle ι) where
  conserved := by simp [Chronicle.opened, drained, committers]
  counted := by simp [Chronicle.opened, committers]
  nodup := .nil
  closed i := by simp [Chronicle.opened, committers]
  held i _ := by simp [Chronicle.opened, accepted]
  final before after i cancelled now h := by simp [Chronicle.opened] at h

/-- A session that is still open has not committed. -/
lemma not_mem_committers (h : Accounted start c)
    (hopen : (c.storage.sessions i).committed = false) :
    i ∉ c.past.committers := by
  intro hmem
  rw [(h.closed i).2 hmem] at hopen
  cases hopen

/-- What no committed session accepts keeps the committed sessions final. -/
lemma final_snoc (h : Accounted start c)
    (hnone : ∀ i ∈ c.past.committers, acceptedBy i (call, reply) = [])
    (before after : History ι) (i : ι) (cancelled : Bool) (now : Timestamp)
    (hpast : c.past ++ [(call, reply)] = before ++ (.commit i cancelled now, .done) :: after) :
    after.flatMap (acceptedBy i) = [] := by
  rcases List.eq_nil_or_concat after with rfl | ⟨middle, last, rfl⟩
  · rfl
  · rw [List.concat_eq_append, ← List.cons_append, ← List.append_assoc] at hpast
    obtain ⟨hfront, hlast⟩ := List.append_inj' hpast rfl
    cases hlast
    have hi : i ∈ c.past.committers := by
      rw [hfront]
      simp [committers, committedBy]
    have hmiddle := h.final before middle i cancelled now hfront
    simp [hmiddle, hnone i hi]

/-- A call whose reply says nothing of messages or commits may only do what no message sees: it
leaves the outbox, the counter, and of each session the messages and whether it is open. -/
lemma silent (h : Accounted start c) {w : Storage ι}
    (haccepted : ∀ i, acceptedBy i (call, reply) = [])
    (hcommitted : committedBy (call, reply) = [])
    (hdrained : drainedBy (call, reply) = [])
    (houtbox : w.store.outbox = c.storage.store.outbox)
    (hcommits : w.store.commits = c.storage.store.commits)
    (hsessions : ∀ i, (w.sessions i).committed = (c.storage.sessions i).committed ∧
      (w.sessions i).messages = (c.storage.sessions i).messages) :
    Accounted start ⟨w, c.past ++ [(call, reply)]⟩ := by
  have accepted (i : ι) :
      (c.past ++ [(call, reply)] : History ι).accepted i = c.past.accepted i := by
    simp [accepted, haccepted]
  have committers : (c.past ++ [(call, reply)] : History ι).committers = c.past.committers := by
    simp [committers, hcommitted]
  have drained : (c.past ++ [(call, reply)] : History ι).drained = c.past.drained := by
    simp [drained, hdrained]
  refine ⟨?conserved, ?counted, ?nodup, fun i => ?closed, fun i hopen => ?held,
    h.final_snoc fun i _ => haccepted i⟩
  case conserved => simp only [committers, drained, houtbox, h.conserved, funext accepted]
  case counted => rw [hcommits, committers, h.counted]
  case nodup =>
    rw [committers]
    exact h.nodup
  case closed =>
    rw [(hsessions i).1, committers]
    exact h.closed i
  case held =>
    rw [(hsessions i).2, accepted]
    exact h.held i ((hsessions i).1 ▸ hopen)

/-- A message that a session accepts is held by the session. It is no part of what was committed,
since the session is open. -/
lemma accept (h : Accounted start c) {cancelled : Bool} {message : Envelope} {session : Session}
    (hok : (c.storage.sessions i).enqueue cancelled message = .ok session) :
    Accounted start
      ⟨c.storage.withSession i session, c.past ++ [(.post i cancelled message, .done)]⟩ := by
  obtain ⟨-, hopen, rfl⟩ := Session.enqueue_eq_ok_iff.1 hok
  have committers : (c.past ++ [(.post i cancelled message, .done)] : History ι).committers =
      c.past.committers := by
    simp [committers, committedBy]
  have others (j : ι) (hj : j ≠ i) :
      (c.past ++ [(.post i cancelled message, .done)] : History ι).accepted j =
        c.past.accepted j := by
    simp [accepted, acceptedBy, hj.symm]
  have batches : c.past.committers.flatMap
        (c.past ++ [(.post i cancelled message, .done)] : History ι).accepted =
      c.past.committers.flatMap c.past.accepted := by
    apply List.flatMap_congr
    intro j hmem
    apply others
    rintro rfl
    exact h.not_mem_committers hopen hmem
  refine ⟨?conserved, ?counted, ?nodup, fun j => ?closed, fun j hj => ?held,
    h.final_snoc fun j hmem => ?final⟩
  case conserved =>
    simp only [committers, batches]
    simpa [drained, drainedBy, Storage.withSession] using h.conserved
  case counted =>
    rw [committers]
    exact h.counted
  case nodup =>
    rw [committers]
    exact h.nodup
  case closed =>
    rw [committers, ← h.closed j]
    by_cases hji : j = i
    · subst hji
      simp [Storage.withSession, hopen]
    · simp [Storage.withSession, hji]
  case held =>
    by_cases hji : j = i
    · subst hji
      have hheld := h.held j hopen
      simp [Storage.withSession, hheld, accepted, acceptedBy]
    · rw [others j hji]
      simp only [Storage.withSession, Function.update_of_ne hji] at hj ⊢
      exact h.held j hj
  case final =>
    -- A committed session is not the one that accepts.
    have hji : i ≠ j := by
      rintro rfl
      exact h.not_mem_committers hopen hmem
    simp [acceptedBy, hji]

/-- A successful commit hands over exactly what the session accepted. -/
lemma commit (h : Accounted start c) {cancelled : Bool} {now : Timestamp} {session : Session}
    {store : Store}
    (hok : (c.storage.sessions i).commit c.storage.store cancelled now = .ok (session, store)) :
    Accounted start
      ⟨{ c.storage.withSession i session with store },
        c.past ++ [(.commit i cancelled now, .done)]⟩ := by
  obtain ⟨-, hopen, rfl, hstore⟩ := Session.commit_eq_ok_iff.1 hok
  obtain ⟨-, rfl⟩ := Store.commit_eq_ok_iff.1 hstore
  have committers : (c.past ++ [(.commit i cancelled now, .done)] : History ι).committers =
      c.past.committers ++ [i] := by
    simp [committers, committedBy]
  have accepted (j : ι) :
      (c.past ++ [(.commit i cancelled now, .done)] : History ι).accepted j =
        c.past.accepted j := by
    simp [accepted, acceptedBy]
  have hfresh := h.not_mem_committers hopen
  refine ⟨?conserved, ?counted, ?nodup, fun j => ?closed, fun j hj => ?held,
    h.final_snoc fun _ _ => rfl⟩
  case conserved =>
    have hheld := h.held i hopen
    simp only [committers, funext accepted, List.flatMap_append, ← List.append_assoc,
      ← h.conserved]
    simp [drained, drainedBy, hheld]
  case counted =>
    rw [committers]
    simp [h.counted, Nat.add_assoc]
  case nodup =>
    rw [committers]
    refine List.nodup_append.2 ⟨h.nodup, by simp, ?_⟩
    rintro j hj k hk rfl
    exact hfresh (List.mem_singleton.1 hk ▸ hj)
  case closed =>
    rw [committers]
    by_cases hji : j = i
    · subst hji
      simp [Storage.withSession, Session.closed]
    · simpa [Storage.withSession, hji] using h.closed j
  case held =>
    by_cases hji : j = i
    · subst hji
      simp [Storage.withSession, Session.closed] at hj
    · rw [accepted]
      simp only [Storage.withSession, Function.update_of_ne hji] at hj ⊢
      exact h.held j hj

/-- Handing out the outbox moves it over to what was handed out. -/
lemma drain (h : Accounted start c) :
    Accounted start
      ⟨{ c.storage with store := c.storage.store.drain.2 },
        c.past ++ [(.drain, .drained c.storage.store.drain.1)]⟩ := by
  have committers :
      (c.past ++ [(.drain, .drained c.storage.store.drain.1)] : History ι).committers =
        c.past.committers := by
    simp [committers, committedBy]
  have accepted (j : ι) :
      (c.past ++ [(.drain, .drained c.storage.store.drain.1)] : History ι).accepted j =
        c.past.accepted j := by
    simp [accepted, acceptedBy]
  refine ⟨?conserved, ?counted, ?nodup, fun j => ?closed, fun j hj => ?held,
    h.final_snoc fun _ _ => rfl⟩
  case conserved =>
    simp only [committers, funext accepted, ← h.conserved]
    simp [drained, drainedBy, Store.drain]
  case counted =>
    rw [committers]
    exact h.counted
  case nodup =>
    rw [committers]
    exact h.nodup
  case closed =>
    rw [committers]
    exact h.closed j
  case held =>
    rw [accepted]
    exact h.held j hj

/-- Every call keeps the account. -/
lemma step (h : Accounted start c) (call : Call ι) : Accounted start (c.step call) := by
  unfold Chronicle.step
  cases call with
  | find i cancelled key =>
    simp only [Storage.perform]
    split
    all_goals exact h.silent (fun _ => rfl) rfl rfl rfl rfl fun _ => ⟨rfl, rfl⟩
  | stage i write =>
    simp only [Storage.perform]
    split
    · next session hok =>
      obtain ⟨hopen, rfl⟩ := Session.stage_eq_ok_iff.1 hok
      refine h.silent (fun _ => rfl) rfl rfl rfl rfl fun j => ?_
      by_cases hji : j = i
      · subst hji
        simp [Storage.withSession]
      · simp [Storage.withSession, hji]
    · exact h.silent (fun _ => rfl) rfl rfl rfl rfl fun _ => ⟨rfl, rfl⟩
  | post i cancelled message =>
    simp only [Storage.perform]
    split
    · next session hok => exact h.accept hok
    · exact h.silent (fun _ => rfl) rfl rfl rfl rfl fun _ => ⟨rfl, rfl⟩
  | commit i cancelled now =>
    simp only [Storage.perform]
    split
    · next session store hok => exact h.commit hok
    · exact h.silent (fun _ => rfl) rfl rfl rfl rfl fun _ => ⟨rfl, rfl⟩
  | drain => exact h.drain
  | restore rows => exact h.silent (fun _ => rfl) rfl rfl rfl rfl fun _ => ⟨rfl, rfl⟩

end Accounted

/-- The account holds after every run on fresh sessions. -/
lemma accounted_run (start : Store) (calls : List (Call ι)) :
    Accounted start ((opened start).run calls) :=
  run_induction (Accounted.opened start) (fun _ call h => h.step call) calls

/-- No message is lost and none comes twice. After any calls on any sessions of a store, what was
handed out so far and then the outbox are the messages that were in the outbox at first and, in the
order of the successful commits, those that each committed session had accepted, in that order. A
drain hands out all that was committed before it and not yet handed out, and leaves the outbox
empty. A session is among the committed ones at most once, the counter counts them, all that a
session accepts it accepts before its commit, and what it accepts it holds as long as it has not
committed. -/
theorem drained_append_outbox (start : Store) (calls : List (Call ι)) :
    let c := (opened start).run calls
    c.past.drained ++ c.storage.store.outbox =
        start.outbox ++ c.past.committers.flatMap c.past.accepted ∧
      (∀ (before after : History ι) messages,
        c.past = before ++ (.drain, .drained messages) :: after →
        before.drained ++ messages =
          start.outbox ++ before.committers.flatMap before.accepted) ∧
      (c.step .drain).storage.store.outbox = [] ∧
      c.past.committers.Nodup ∧
      c.storage.store.commits = start.commits + c.past.committers.length ∧
      (∀ before after i cancelled now,
        c.past = before ++ (.commit i cancelled now, .done) :: after →
          c.past.accepted i = History.accepted before i) ∧
      ∀ i, i ∉ c.past.committers →
        (c.storage.sessions i).committed = false ∧
          (c.storage.sessions i).messages = c.past.accepted i := by
  intro c
  have h : Accounted start c := accounted_run start calls
  refine ⟨h.conserved, ?_, rfl, h.nodup, h.counted, ?_, fun i hi => ?_⟩
  · intro before after messages hpast
    obtain ⟨earlier, rfl, hreply⟩ := exists_run_of_past hpast
    -- The account before the drain has the outbox in the place of what is handed out.
    cases hreply
    exact (accounted_run start earlier).conserved
  · intro before after i cancelled now hpast
    have hafter := h.final before after i cancelled now hpast
    simp [hpast, accepted, acceptedBy, hafter]
  · have hopen : (c.storage.sessions i).committed = false := by
      rw [Bool.eq_false_iff]
      exact fun hclosed => hi ((h.closed i).1 hclosed)
    exact ⟨hopen, h.held i hopen⟩

end Saga.Chronicle
