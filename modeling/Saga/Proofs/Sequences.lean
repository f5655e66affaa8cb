import Mathlib.Tactic.Lemma

/-!
# Sequences of steps

A sequence goes on where its first step succeeds and ends where it fails, so it succeeds just if its
steps do, one after the other.
-/

/-- A sequence of checks succeeds just if both do, the second with what the first gives. -/
lemma Except.bind_eq_ok_iff {ε α β : Type} {x : Except ε α} {f : α → Except ε β} {b : β} :
    (x >>= f) = .ok b ↔ ∃ a, x = .ok a ∧ f a = .ok b := by
  cases x with
  | error e => exact ⟨nofun, nofun⟩
  | ok a => exact ⟨fun h => ⟨a, rfl, h⟩, fun ⟨_, rfl, h⟩ => h⟩

namespace EStateM

variable {ε σ α β : Type} {x : EStateM ε σ α} {f : α → EStateM ε σ β} {s s' s'' : σ}

/-- A sequence goes on from where its first step succeeds. -/
lemma bind_of_ok {a : α} (h : x s = .ok a s') : (x >>= f) s = f a s' := by
  refine (run_bind x f).trans ?_
  rw [show x.run s = .ok a s' from h]
  rfl

/-- A sequence ends where its first step fails. -/
lemma bind_of_error {e : ε} (h : x s = .error e s') : (x >>= f) s = .error e s' := by
  refine (run_bind x f).trans ?_
  rw [show x.run s = .error e s' from h]

/-- A sequence succeeds just if its steps do, one after the other. -/
lemma bind_eq_ok_iff {b : β} :
    (x >>= f) s = .ok b s'' ↔ ∃ a s', x s = .ok a s' ∧ f a s' = .ok b s'' := by
  cases h : x s with
  | ok a s' =>
    rw [bind_of_ok h]
    constructor
    · exact fun hnext => ⟨a, s', rfl, hnext⟩
    · rintro ⟨_, _, ⟨⟩, hnext⟩
      exact hnext
  | error e s' =>
    rw [bind_of_error h]
    exact ⟨nofun, nofun⟩

end EStateM
