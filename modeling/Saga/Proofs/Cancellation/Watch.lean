import Mathlib.Logic.Relation
import Mathlib.Tactic.Lemma
import Saga.Cancellation

/-!
# Tokens under watch

Tokens are made and copied, cancelled and checked, and waiters on them are made and polled, one step
at a time and in any order. A `Watch` is a board with everything that was done on it so far. What a
history says is read off the answers alone: which tokens are copies of each other
(`Watch.History.Kin`), which of them were cancelled, and which waiters were told to wait.
-/

namespace Saga

namespace Watch

/-- What is done with tokens and waiters. Either go by number, in the order in which they were made.
-/
inductive Step where
  | create
  | clone (token : Nat)
  | cancel (token : Nat)
  | check (token : Nat)
  | wait (token : Nat)
  | poll (waiter : Nat)
  deriving DecidableEq

/-- What a step comes to. -/
inductive Answer where
  | token (number : Nat)
  | waiter (number : Nat)
  | done
  | checked (outcome : Except EngineError Unit)
  | polled (ready : Bool)
  /-- There is nothing of that number. -/
  | unknown

/-- Takes a step. -/
def perform (b : Board Nat Nat) : Step → Answer × Board Nat Nat
  | .create => (.token b.tokens.size, b.create b.tokens.size)
  | .clone token =>
    if b.tokens.contains token then (.token b.tokens.size, b.clone token b.tokens.size)
    else (.unknown, b)
  | .cancel token =>
    if b.tokens.contains token then (.done, b.cancel token) else (.unknown, b)
  | .check token =>
    if b.tokens.contains token then (.checked (b.check token), b) else (.unknown, b)
  | .wait token =>
    if b.tokens.contains token then (.waiter b.waiters.size, b.wait token b.waiters.size)
    else (.unknown, b)
  | .poll waiter =>
    if b.waiters.contains waiter then (.polled (b.poll waiter).1, (b.poll waiter).2)
    else (.unknown, b)

section Perform

variable {b : Board Nat Nat} {t w : Nat}

/-- Cloning a token that is there makes a copy under the next free number. -/
lemma perform_clone (ht : b.tokens.contains t) :
    perform b (.clone t) = (.token b.tokens.size, b.clone t b.tokens.size) := if_pos ht

/-- Cancelling a token that is there cancels its family. -/
lemma perform_cancel (ht : b.tokens.contains t) : perform b (.cancel t) = (.done, b.cancel t) :=
  if_pos ht

/-- Checking a token that is there tells its signal and changes nothing. -/
lemma perform_check (ht : b.tokens.contains t) : perform b (.check t) = (.checked (b.check t), b) :=
  if_pos ht

/-- Waiting on a token that is there makes a waiter under the next free number. -/
lemma perform_wait (ht : b.tokens.contains t) :
    perform b (.wait t) = (.waiter b.waiters.size, b.wait t b.waiters.size) := if_pos ht

/-- Polling a waiter that is there gives the answer of the board. -/
lemma perform_poll (hw : b.waiters.contains w) :
    perform b (.poll w) = (.polled (b.poll w).1, (b.poll w).2) := if_pos hw

end Perform

/-- The steps so far with their answers, the oldest first. -/
abbrev History := List (Step × Answer)

namespace History

/-- Whether a token was made. -/
def Made (h : History) (t : Nat) : Prop := ∃ step, (step, .token t) ∈ h

/-- Whether the second token was made as a copy of the first. -/
def Copied (h : History) (t u : Nat) : Prop := (.clone t, .token u) ∈ h

/-- Whether tokens are copies of each other, or of copies. -/
def Kin (h : History) : Nat → Nat → Prop := Relation.EqvGen h.Copied

/-- Whether a token or one of its kin was cancelled. -/
def Cancelled (h : History) (t : Nat) : Prop := ∃ u, (.cancel u, .done) ∈ h ∧ h.Kin u t

/-- Whether a waiter was made for a token. -/
def Waits (h : History) (w t : Nat) : Prop := (.wait t, .waiter w) ∈ h

/-- Whether a waiter was told to wait when it was polled. -/
def Pended (h : History) (w : Nat) : Prop := (.poll w, .polled false) ∈ h

variable {h h' : History} {s : Step} {a : Answer} {t u w : Nat}

/-- One more step makes the token that its answer names, if it names one. -/
lemma made_concat : Made (h ++ [(s, a)]) t ↔ h.Made t ∨ a = .token t := by
  unfold Made
  simp only [List.mem_append, List.mem_singleton, Prod.mk.injEq, exists_or]
  exact or_congr_right ⟨fun ⟨_, _, heq⟩ => heq.symm, fun heq => ⟨s, rfl, heq.symm⟩⟩

/-- One more step copies a token if it is a clone of it, to the token in its answer. -/
lemma copied_concat : Copied (h ++ [(s, a)]) t u ↔ h.Copied t u ∨ s = .clone t ∧ a = .token u := by
  unfold Copied
  simp only [List.mem_append, List.mem_singleton, Prod.mk.injEq, eq_comm]

/-- One more step makes a waiter on a token if it asks for one, under the number in its answer. -/
lemma waits_concat : Waits (h ++ [(s, a)]) w t ↔ h.Waits w t ∨ s = .wait t ∧ a = .waiter w := by
  unfold Waits
  simp only [List.mem_append, List.mem_singleton, Prod.mk.injEq, eq_comm]

/-- One more step tells a waiter to wait if it polls it and the answer is no. -/
lemma pended_concat : Pended (h ++ [(s, a)]) w ↔ h.Pended w ∨ s = .poll w ∧ a = .polled false := by
  unfold Pended
  simp only [List.mem_append, List.mem_singleton, Prod.mk.injEq, eq_comm]

/-- Tokens that are kin stay so when the history grows. -/
lemma Kin.mono (hsub : h ⊆ h') (hkin : h.Kin t u) : h'.Kin t u := by
  have hcopied : h.Copied ≤ h'.Copied := fun _ _ hmem => hsub hmem
  exact Relation.EqvGen.mono hcopied t u hkin

end History

end Watch

/-- A board with everything that was done on it. -/
structure Watch where
  board : Board Nat Nat := {}
  past : Watch.History := []

namespace Watch

/-- What a step would come to. -/
def answer (w : Watch) (s : Step) : Answer := (perform w.board s).1

/-- Takes a step and notes its answer. -/
def step (w : Watch) (s : Step) : Watch where
  board := (perform w.board s).2
  past := w.past ++ [(s, w.answer s)]

/-- Takes steps one after the other. -/
def run (w : Watch) (steps : List Step) : Watch := steps.foldl step w

/-- How often a waiter was woken. -/
def wakes (w : Watch) (waiter : Nat) : Nat :=
  ((w.board.waiters.get? waiter).map Waiter.wakes).getD 0

/-- A step leaves the board that its performance gives and is noted with its answer. -/
lemma step_eq {w : Watch} {s : Step} {a : Answer} {b : Board Nat Nat}
    (h : perform w.board s = (a, b)) : w.step s = ⟨b, w.past ++ [(s, a)]⟩ := by
  rw [step, answer, h]

/-- A step takes nothing out of the history. -/
lemma past_subset_step (w : Watch) (s : Step) : w.past ⊆ (w.step s).past :=
  List.subset_append_left _ _

/-- A run takes nothing out of the history. -/
lemma past_subset_run (w : Watch) (steps : List Step) : w.past ⊆ (w.run steps).past := by
  induction steps generalizing w with
  | nil => exact List.Subset.refl _
  | cons s rest ih => exact List.Subset.trans (past_subset_step w s) (ih (w.step s))

end Watch

end Saga
