import Saga.Proofs.Dispatch.Committing

/-!
# How often a dispatch commits

The session of a delivery is closed by its first commit and takes no other one. So a script commits
its own session at most once, whatever it does besides and whatever it has other deliveries do
(`Script.ownCommits_le_one`), and if they do nothing this is by how much the commits of the store go
up (`Script.run_commits`). A dispatch is such a script, and it comes to start each action of the
matching rule at most once (`Definition.Starts.unique`).
-/

namespace Saga

variable {σ M : Type}

/-- Commits the session of the delivery. -/
def Request.isCommit : Request M → Bool
  | .commit => true
  | _ => false

/-- What is answered raises the commits of the store by one if it is a commit, and not otherwise. -/
lemma Delivery.Does.commits {s s' : Delivery σ M} {r : Request M} {answer : r.Answer}
    (h : s.Does r answer s') :
    s'.store.commits = s.store.commits + if r.isCommit then 1 else 0 := by
  cases h with
  | commit hopen hstore =>
    obtain ⟨-, rfl⟩ := Store.commit_eq_ok_iff.1 hstore
    rfl
  | _ => rfl

namespace Script

variable {ε α : Type} {scope : Scope σ M}

/-- How many commits of its own session a script is answered when it is run. -/
def ownCommits (scope : Scope σ M) : Script σ M ε α → Delivery σ M → Nat
  | done _, _ => 0
  | fail _, _ => 0
  | app change next, s => (next s.app).ownCommits scope { s with app := change s.app }
  | request r next, s =>
    let answered := scope.perform r s
    (if r.isCommit && (Run.result answered).isOk then 1 else 0) +
      (next (Run.result answered)).ownCommits scope (Run.final answered)

section Closed

variable (hservices : scope.services.OfSession) (hseparate : scope.Separate)

include hservices hseparate

/-- No commit of a closed session is answered. -/
lemma ownCommits_of_closed (script : Script σ M ε α) {s : Delivery σ M}
    (hs : s.session = .closed) : script.ownCommits scope s = 0 := by
  induction script generalizing s with
  | done a => rfl
  | fail e => rfl
  | app change next ih => exact ih s.app hs
  | request r next ih =>
    have hrefused : (r.isCommit && (Run.result (scope.perform r s)).isOk) = false := by
      cases r with
      | commit =>
        rcases Scope.perform_cases hservices (r := .commit) id s with
          ⟨e, herror⟩ | ⟨answer, s', hok, hdoes⟩
        · rw [herror]
          rfl
        · cases hdoes with
          | commit hopen =>
            rw [hs] at hopen
            cases hopen
      | _ => rfl
    simp only [ownCommits, hrefused, Bool.false_eq_true, if_false,
      ih _ (Scope.perform_session hservices hseparate r hs)]

/-- At most one commit of a session is answered: it closes the session. -/
lemma ownCommits_le_one (script : Script σ M ε α) (s : Delivery σ M) :
    script.ownCommits scope s ≤ 1 := by
  induction script generalizing s with
  | done a => exact Nat.zero_le 1
  | fail e => exact Nat.zero_le 1
  | app change next ih => exact ih s.app _
  | request r next ih =>
    simp only [ownCommits]
    split
    · next hcommitted =>
      -- This commit closes the session, so the rest of the script makes none.
      have hclosed : (Run.final (scope.perform r s)).session = .closed := by
        cases r with
        | commit =>
          cases hperform : scope.perform .commit s with
          | ok answer s' => exact Scope.perform_commit_closes hservices hperform
          | error e s' =>
            rw [hperform] at hcommitted
            cases hcommitted
        | _ => cases hcommitted
      exact Nat.le_of_eq
        (congrArg (1 + ·) (ownCommits_of_closed hservices hseparate _ hclosed))
    · rw [Nat.zero_add]
      exact ih _ _

end Closed

/-- A script that forwards nothing raises the commits of the store by its own. -/
lemma run_commits (hservices : scope.services.OfSession) {script : Script σ M ε α}
    (hscript : script.Only fun r => ¬ r.Forwards) (s : Delivery σ M) :
    (Run.final (script.run scope s)).store.commits =
      s.store.commits + script.ownCommits scope s := by
  induction script generalizing s with
  | done a => rfl
  | fail e => rfl
  | app change next ih => exact ih s.app (hscript s.app) _
  | request r next ih =>
    obtain ⟨hr, hnext⟩ := hscript
    have hcommits : (Run.final (scope.perform r s)).store.commits =
        s.store.commits +
          if r.isCommit && (Run.result (scope.perform r s)).isOk then 1 else 0 := by
      rcases Scope.perform_cases hservices hr s with ⟨e, herror⟩ | ⟨answer, s', hok, hdoes⟩
      · rw [herror]
        simp [Except.isOk, Except.toBool]
      · rw [hok]
        simpa [Except.isOk, Except.toBool] using hdoes.commits
    rw [run_request, ih _ (hnext _), hcommits, Nat.add_assoc]
    rfl

end Script

variable [Message M]

namespace Definition

variable {d : Definition σ M} {options : DispatchOptions} {scope : Scope σ M} {m : M}
  {s : Delivery σ M}

/-- How many commits of its own session a dispatch is answered. -/
def ownCommits (d : Definition σ M) (options : DispatchOptions) (scope : Scope σ M) (m : M)
    (s : Delivery σ M) : Nat :=
  match Registry.blueprint d (Message.type m) s with
  | .ok b fetched => (d.script options b m).ownCommits scope fetched
  | .error _ _ => 0

/-- A dispatch commits its own session at most once, since this closes it. -/
lemma ownCommits_le_one (hservices : scope.services.OfSession) (hseparate : scope.Separate)
    (s : Delivery σ M) : d.ownCommits options scope m s ≤ 1 := by
  unfold ownCommits
  cases Registry.blueprint d (Message.type m) s with
  | ok b fetched => exact Script.ownCommits_le_one hservices hseparate _ fetched
  | error e s' => exact Nat.zero_le 1

/-- A dispatch whose actions forward nothing raises the commits of the store by its own. -/
lemma dispatch_commits (hservices : scope.services.OfSession)
    (hquiet : ∀ b fetched, Registry.blueprint d (Message.type m) s = .ok b fetched →
      b.Only (fun r => ¬ r.Forwards) m) :
    (Run.final (d.dispatch options scope m s)).store.commits =
      s.store.commits + d.ownCommits options scope m s := by
  rw [dispatch_apply]
  unfold ownCommits
  rcases Registry.blueprint_cases d (Message.type m) s with
    ⟨e, hfetch⟩ | ⟨b, registry, log, hfetch, -⟩
  · rw [hfetch]
    rfl
  · have hb := hquiet b _ hfetch
    rw [hfetch]
    exact Script.run_commits hservices (script_only hb) _

/-- A dispatch comes to start an action of the matching rule in one state only. -/
lemma Starts.unique {b : Blueprint σ M d.states} {fetched s' : Delivery σ M} {index : Nat}
    {action action' : Action σ M} (h : d.Starts scope b m fetched index action s)
    (h' : d.Starts scope b m fetched index action' s') : action = action' ∧ s = s' := by
  obtain ⟨key, found, actions, hlocate, hmatching, hat, hrun, -⟩ := h
  obtain ⟨key', found', actions', hlocate', hmatching', hat', hrun', -⟩ := h'
  cases hlocate.symm.trans hlocate'
  cases hmatching.symm.trans hmatching'
  cases hat.symm.trans hat'
  cases hrun.symm.trans hrun'
  exact ⟨rfl, rfl⟩

end Definition

end Saga
