import Saga.Proofs.Script.Effects

/-!
# Actions in order

The script of a rule takes its actions one after the other. Whether it comes to one of them is
decided by those before it alone (`run_runActions_split`), and once the delivery was cancelled it
comes to none (`run_rule_of_cancelled`). Only a script that asks for it cancels its delivery
(`Script.Only.run_cancelled`), so a rule at whose end the delivery is cancelled has an action in
which it came to be (`exists_action_of_cancelled`).
-/

namespace Saga

variable {σ M : Type}

/-- Neither cancels the delivery nor has another one do anything. -/
def Request.LeavesLive : Request M → Prop
  | .cancel | .forward _ _ => False
  | _ => True

/-- A request that cancels nothing forwards nothing. -/
lemma Request.LeavesLive.not_forwards {r : Request M} (h : r.LeavesLive) : ¬ r.Forwards := by
  cases r with
  | forward definition message => exact h.elim
  | _ => exact id

namespace Script

variable {ε ε' α : Type} {scope : Scope σ M}

/-- Mapping the errors of a script maps the one with which it fails. -/
lemma run_mapError (f : ε → ε') (script : Script σ M ε α) (s : Delivery σ M) :
    (script.mapError f).run scope s =
      match script.run scope s with
      | .ok a s' => .ok a s'
      | .error e s' => .error (f e) s' := by
  induction script generalizing s with
  | done a => rfl
  | fail e => rfl
  | app change next ih => exact ih s.app { s with app := change s.app }
  | request r next ih =>
    simp only [mapError, Script.run]
    split
    · next answer s' _ => exact ih (.ok answer) s'
    · next e s' _ => exact ih (.error e) s'

/-- A script that does not cancel its delivery leaves it as live as it was. -/
lemma Only.run_cancelled (h : scope.services.OfSession) {script : Script σ M ε α}
    (hscript : script.Only Request.LeavesLive) (s : Delivery σ M) :
    (Run.final (script.run scope s)).cancelled = s.cancelled := by
  refine run_does (I := fun s' => s'.cancelled = s.cancelled) h (fun _ hr => hr.not_forwards) ?_ ?_
    hscript s rfl
  · exact fun _ _ hs' => hs'
  · intro r answer s₁ s₂ hr hdoes hs'
    cases hdoes with
    | cancel => exact hr.elim
    | _ => exact hs'

end Script

section Actions

variable {scope : Scope σ M} {definition message : String} {m : M} {index : Nat}
  {s s' : Delivery σ M} {action : Action σ M} {rest : List (Action σ M)}

/-- Actions in two parts run one part after the other, and the second one counts on. -/
lemma runActions_append (definition message : String) (m : M) (index : Nat)
    (actions rest : List (Action σ M)) :
    runActions definition message m index (actions ++ rest) =
      (runActions definition message m index actions).bind fun _ =>
        runActions definition message m (index + actions.length) rest := by
  induction actions generalizing index with
  | nil => rfl
  | cons action actions ih =>
    show Script.checkLive.bind _ = (Script.checkLive.bind _).bind _
    rw [Script.bind_assoc]
    congr 1
    funext u
    show ((action m).mapError _).bind _ = (((action m).mapError _).bind _).bind _
    rw [Script.bind_assoc]
    congr 1
    funext u
    have hlength : index + 1 + actions.length = index + (action :: actions).length := by
      rw [List.length_cons]
      omega
    rw [← hlength]
    exact ih (index + 1)

/-- In a live delivery the first action runs, and the others only if it succeeds. -/
lemma run_runActions_cons (hlive : s.cancelled = false) :
    (runActions definition message m index (action :: rest)).run scope s =
      match (action m).run scope s with
      | .ok () s' => (runActions definition message m (index + 1) rest).run scope s'
      | .error e s' => .error (.ofAction definition message index e) s' := by
  show (Script.checkLive.bind fun _ => ((action m).mapError _).bind fun _ =>
    runActions definition message m (index + 1) rest).run scope s = _
  rw [Script.run_bind, Script.run_checkLive, hlive]
  simp only [Bool.false_eq_true, if_false]
  rw [Script.run_bind, Script.run_mapError]
  cases (action m).run scope s <;> rfl

/-- The actions before action `i`, and then the others. -/
lemma runActions_split (definition message : String) (m : M) (index : Nat)
    {actions : List (Action σ M)} {i : Nat} (hat : actions[i]? = some action) :
    runActions definition message m index actions =
      (runActions definition message m index (actions.take i)).bind fun _ =>
        runActions definition message m (index + i) (action :: actions.drop (i + 1)) := by
  obtain ⟨hlt, hget⟩ := List.getElem?_eq_some_iff.1 hat
  have hsplit : actions = actions.take i ++ action :: actions.drop (i + 1) := by
    rw [← hget, ← List.drop_eq_getElem_cons hlt, List.take_append_drop]
  have hlength : (actions.take i).length = i := by
    rw [List.length_take]
    omega
  have hactions := runActions_append definition message m index (actions.take i)
    (action :: actions.drop (i + 1))
  rw [← hsplit, hlength] at hactions
  exact hactions

/-- A rule whose first actions have succeeded goes on with the next, as long as it is live. -/
lemma run_runActions_split {actions : List (Action σ M)} {i : Nat} {s₀ : Delivery σ M}
    (hat : actions[i]? = some action)
    (hbefore : (runActions definition message m index (actions.take i)).run scope s₀ = .ok () s)
    (hlive : s.cancelled = false) :
    (runActions definition message m index actions).run scope s₀ =
      match (action m).run scope s with
      | .ok () s' =>
        (runActions definition message m (index + i + 1) (actions.drop (i + 1))).run scope s'
      | .error e s' => .error (.ofAction definition message (index + i) e) s' := by
  rw [runActions_split definition message m index hat, Script.run_bind, hbefore]
  exact run_runActions_cons hlive

/-- Checking fails in a cancelled delivery. -/
lemma run_checkLive_of_cancelled (hcancelled : s.cancelled = true) :
    (Script.checkLive : Script σ M EngineError Unit).run scope s = .error .cancelled s := by
  rw [Script.run_checkLive, hcancelled]
  rfl

/-- In a cancelled delivery no action of a rule does anything. -/
lemma final_runActions_of_cancelled (definition message : String) (m : M) (index : Nat)
    (actions : List (Action σ M)) (hcancelled : s.cancelled = true) :
    Run.final ((runActions definition message m index actions).run scope s) = s := by
  cases actions with
  | nil => rfl
  | cons action rest =>
    show Run.final ((Script.checkLive.bind _).run scope s) = s
    rw [Script.run_bind, run_checkLive_of_cancelled hcancelled]
    rfl

/-- Once the delivery was cancelled a rule fails, at its next action or before its row is staged. -/
lemma run_rule_of_cancelled {α : Type} (definition message : String) (m : M) (index : Nat)
    (actions : List (Action σ M)) (write : StagedWrite) (a : α) (hcancelled : s.cancelled = true) :
    ((runActions definition message m index actions).bind fun _ =>
      Script.staging write a).run scope s = .error .cancelled s := by
  cases actions with
  | nil =>
    show (Script.checkLive.bind _).run scope s = _
    rw [Script.run_bind, run_checkLive_of_cancelled hcancelled]
  | cons action rest =>
    show ((Script.checkLive.bind _).bind _).run scope s = _
    rw [Script.run_bind, Script.run_bind, run_checkLive_of_cancelled hcancelled]

/-- A delivery that was cancelled by actions in order was cancelled by one of them. -/
lemma exists_action_of_cancelled {actions : List (Action σ M)} (hlive : s.cancelled = false)
    (hcancelled :
      (Run.final ((runActions definition message m index actions).run scope s)).cancelled = true) :
    ∃ i action s', actions[i]? = some action ∧
      (runActions definition message m index (actions.take i)).run scope s = .ok () s' ∧
      s'.cancelled = false ∧ (Run.final ((action m).run scope s')).cancelled = true := by
  induction actions generalizing index s with
  | nil =>
    have hlive' : s.cancelled = true := hcancelled
    cases hlive.symm.trans hlive'
  | cons action rest ih =>
    cases hended : (Run.final ((action m).run scope s)).cancelled with
    | true => exact ⟨0, action, s, rfl, rfl, hlive, hended⟩
    | false =>
      rw [run_runActions_cons hlive] at hcancelled
      cases hrun : (action m).run scope s with
      | error e s' =>
        rw [hrun] at hcancelled hended
        cases hended.symm.trans hcancelled
      | ok u s' =>
        rw [hrun] at hcancelled hended
        obtain ⟨i, later, s'', hlater, hbefore, hlive', hends⟩ := ih hended hcancelled
        refine ⟨i + 1, later, s'', hlater, ?_, hlive', hends⟩
        rw [List.take_succ_cons, run_runActions_cons hlive, hrun]
        exact hbefore

end Actions

end Saga
