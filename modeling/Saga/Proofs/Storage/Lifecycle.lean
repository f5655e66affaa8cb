import Saga.Proofs.Storage.Bookkeeping
import Saga.Proofs.Storage.Outbox

/-!
# The life of a session

A session is open until a commit of it succeeds, and closed from then on. While it is open it holds
what was staged in it, every call that fails included, and a commit hands all of that to the store
(`Storage.Holding`); once it is closed it holds nothing, and no call on it does anything
(`Storage.Spent`). Which of the two it is, and what it holds, can be read off the history of the
calls (`History.session`, `Chronicle.session_run`), whatever other sessions do and whatever becomes
of the store.
-/

namespace Saga

variable {ι : Type} [DecidableEq ι] {i : ι}

namespace History

/-- What a session has accepted after one call is what it accepted by it. -/
@[simp] lemma accepted_singleton (entry : Call ι × Reply) (i : ι) :
    accepted [entry] i = acceptedBy i entry :=
  List.append_nil _

omit [DecidableEq ι] in
/-- The session that has committed after one call is the one that committed by it. -/
@[simp] lemma committers_singleton (entry : Call ι × Reply) :
    committers [entry] = committedBy entry :=
  List.append_nil _

/-- The session that a history tells of: all that was staged in it, until it commits. -/
def session (h : History ι) (i : ι) : Session :=
  if i ∈ h.committers then .closed else ⟨h.staged i, h.accepted i, false⟩

/-- A session that has committed is closed. -/
lemma session_of_mem {h : History ι} (hi : i ∈ h.committers) : h.session i = .closed := if_pos hi

/-- A session that has not committed holds what was staged and accepted. -/
lemma session_of_not_mem {h : History ι} (hi : i ∉ h.committers) :
    h.session i = ⟨h.staged i, h.accepted i, false⟩ := if_neg hi

/-- A session that is open has not committed. -/
lemma not_mem_committers_of_open {h : History ι} (hopen : (h.session i).committed = false) :
    i ∉ h.committers := by
  intro hi
  rw [session_of_mem hi] at hopen
  cases hopen

/-- A call by which a session stages nothing and does not commit tells nothing new of it. -/
lemma session_concat_of_silent {h : History ι} {entry : Call ι × Reply}
    (hstaged : stagedBy i entry = []) (haccepted : acceptedBy i entry = [])
    (hcommitted : i ∉ committedBy entry) : session (h ++ [entry]) i = h.session i := by
  simp [session, hstaged, haccepted, hcommitted]

end History

namespace Storage

/-- What the calls on an open session come to, and what it holds. -/
structure Holding (w : Storage ι) (i : ι) (writes : List StagedWrite) (messages : List Envelope) :
    Prop where
  session : w.sessions i = ⟨writes, messages, false⟩
  stage : ∀ write, w.perform (.stage i write) =
    (.done, w.withSession i ⟨writes ++ [write], messages, false⟩)
  post : ∀ cancelled message, w.perform (.post i cancelled message) =
    if cancelled then (.failed .cancelled, w)
    else (.done, w.withSession i ⟨writes, messages ++ [message], false⟩)
  /-- A commit that is cancelled or refused changes nothing; any other hands everything over. -/
  commit : ∀ cancelled now, w.perform (.commit i cancelled now) =
    if cancelled then (.failed .cancelled, w)
    else match w.store.commit now writes messages with
      | .ok store => (.done, { w.withSession i .closed with store })
      | .error e => (.failed e.toEngine, w)

/-- What the calls on a closed session come to. -/
structure Spent (w : Storage ι) (i : ι) : Prop where
  session : w.sessions i = .closed
  stage : ∀ write, w.perform (.stage i write) = (.failed .alreadyCommitted, w)
  post : ∀ cancelled message, w.perform (.post i cancelled message) =
    (.failed (if cancelled then .cancelled else .alreadyCommitted), w)
  commit : ∀ cancelled now, w.perform (.commit i cancelled now) =
    (.failed (if cancelled then .cancelled else .alreadyCommitted), w)

variable {w : Storage ι}

/-- An open session takes writes and messages, and its commit hands over what it holds. -/
lemma holding_of_open {writes : List StagedWrite} {messages : List Envelope}
    (h : w.sessions i = ⟨writes, messages, false⟩) : w.Holding i writes messages where
  session := h
  stage write := by
    simp only [perform, h]
    rfl
  post cancelled message := by
    simp only [perform, h]
    cases cancelled <;> rfl
  commit cancelled now := by
    simp only [perform, h, Session.commit]
    cases cancelled with
    | true => rfl
    | false => cases w.store.commit now writes messages <;> rfl

/-- A closed session refuses every call and changes nothing. -/
lemma spent_of_closed (h : w.sessions i = .closed) : w.Spent i where
  session := h
  stage write := by
    simp only [perform, h]
    rfl
  post cancelled message := by
    simp only [perform, h]
    cases cancelled <;> rfl
  commit cancelled now := by
    simp only [perform, h]
    cases cancelled <;> rfl

end Storage

namespace Chronicle
open History

/-- Every call keeps the sessions as the history tells of them. -/
lemma session_step {c : Chronicle ι} (h : ∀ i, c.storage.sessions i = c.past.session i)
    (call : Call ι) (i : ι) :
    (c.step call).storage.sessions i = (c.step call).past.session i := by
  -- A call that leaves the session alone and says nothing of it.
  have silent : ∀ (w : Storage ι) (entry : Call ι × Reply), w.sessions i = c.storage.sessions i →
      stagedBy i entry = [] → acceptedBy i entry = [] → i ∉ committedBy entry →
      w.sessions i = session (c.past ++ [entry]) i := by
    intro w entry hsame hstaged haccepted hcommitted
    rw [session_concat_of_silent hstaged haccepted hcommitted, hsame, h i]
  unfold Chronicle.step
  cases call with
  | find j cancelled key =>
    simp only [Storage.perform]
    split
    all_goals exact silent _ _ rfl rfl rfl List.not_mem_nil
  | stage j write =>
    simp only [Storage.perform]
    split
    · next session hok =>
      obtain ⟨hopen, rfl⟩ := Session.stage_eq_ok_iff.1 hok
      by_cases hij : i = j
      · subst hij
        have hi := not_mem_committers_of_open (h i ▸ hopen)
        rw [h i, session_of_not_mem hi]
        simp [Storage.withSession, History.session, committedBy, hi, stagedBy, acceptedBy]
      · refine silent _ _ (Function.update_of_ne hij _ _) ?_ rfl List.not_mem_nil
        simp [stagedBy, Ne.symm hij]
    · exact silent _ _ rfl rfl rfl List.not_mem_nil
  | post j cancelled message =>
    simp only [Storage.perform]
    split
    · next session hok =>
      obtain ⟨-, hopen, rfl⟩ := Session.enqueue_eq_ok_iff.1 hok
      by_cases hij : i = j
      · subst hij
        have hi := not_mem_committers_of_open (h i ▸ hopen)
        rw [h i, session_of_not_mem hi]
        simp [Storage.withSession, History.session, committedBy, hi, stagedBy, acceptedBy]
      · refine silent _ _ (Function.update_of_ne hij _ _) rfl ?_ List.not_mem_nil
        simp [acceptedBy, Ne.symm hij]
    · exact silent _ _ rfl rfl rfl List.not_mem_nil
  | commit j cancelled now =>
    simp only [Storage.perform]
    split
    · next session store hok =>
      obtain ⟨-, -, rfl, -⟩ := Session.commit_eq_ok_iff.1 hok
      by_cases hij : i = j
      · subst hij
        rw [session_of_mem (by simp [committedBy])]
        simp [Storage.withSession]
      · refine silent _ _ (Function.update_of_ne hij _ _) rfl rfl ?_
        simpa [committedBy] using hij
    · exact silent _ _ rfl rfl rfl List.not_mem_nil
  | drain => exact silent _ _ rfl rfl rfl List.not_mem_nil
  | restore rows => exact silent _ _ rfl rfl rfl List.not_mem_nil

/-- After any calls on fresh sessions each session is as the history tells. -/
lemma session_run (start : Store) (calls : List (Call ι)) (i : ι) :
    ((opened start).run calls).storage.sessions i = ((opened start).run calls).past.session i :=
  run_induction (P := fun c : Chronicle ι => ∀ i, c.storage.sessions i = c.past.session i)
    (fun _ => rfl) (fun _ call h => session_step h call) calls i

end Chronicle

end Saga
