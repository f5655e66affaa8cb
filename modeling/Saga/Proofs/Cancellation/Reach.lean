import Saga.Proofs.Cancellation.Waiting

/-!
# Who a cancellation reaches

Whatever has been done, what tokens report and what waiters are told is what the history says of
their family. A waiter is woken by the first cancellation after it was told to wait
(`Watch.wakes_step_cancel`) and by nothing else (`Watch.wakes_step_of_ne`), so a cancellation
reaches every waiter of the family and nobody else (`Watch.cancellation_reaches_family`).
-/

namespace Saga.Watch

/-- A waiter is answered by the signal of the family of its token. -/
lemma Sound.answer_poll {w : Watch} (h : w.Sound) {v t : Nat} (hv : w.past.Waits v t) :
    (w.answer (.poll v) = .polled true ↔ w.past.Cancelled t) ∧
      (w.answer (.poll v) = .polled false ↔ ¬ w.past.Cancelled t) := by
  obtain ⟨x, hx, ht⟩ := h.waiting.waits v t hv
  rw [answer, perform_poll (Option.isSome_of_eq_some hx), (h.waiting.poll hx).1,
    ← h.families.cancelled_iff ht]
  cases w.board.familyCancelled x.family <;> simp

section Wakes

variable {w : Watch} {v t : Nat} {x : Waiter}

/-- The wakes of a waiter are those counted in its entry on the board. -/
lemma wakes_of_get? (hx : w.board.waiters.get? v = some x) : w.wakes v = x.wakes := by
  simp [wakes, hx]

/-- Nobody is woken but by a cancellation. -/
lemma wakes_step_of_ne (h : w.Sound) (hv : w.past.Waits v t) {s : Step} (hs : ∀ u, s ≠ .cancel u) :
    (w.step s).wakes v = w.wakes v := by
  obtain ⟨x, hx, -⟩ := h.waiting.waits v t hv
  have hsame : perform w.board s = (.unknown, w.board) → (w.step s).wakes v = w.wakes v :=
    fun hperform => by rw [step_eq hperform, wakes, wakes]
  cases s with
  | create => rfl
  | clone u =>
    by_cases hu : w.board.tokens.contains u
    · obtain ⟨f, hf⟩ := Option.isSome_iff_exists.1 hu
      rw [step_eq (perform_clone hu), Board.clone_eq hf, wakes, wakes]
    · exact hsame (if_neg hu)
  | cancel u => exact absurd rfl (hs u)
  | check u =>
    by_cases hu : w.board.tokens.contains u
    · rw [step_eq (perform_check hu), wakes, wakes]
    · exact hsame (if_neg hu)
  | wait u =>
    by_cases hu : w.board.tokens.contains u
    · obtain ⟨f, hf⟩ := Option.isSome_iff_exists.1 hu
      have hne : w.board.waiters.size ≠ v := by
        rintro rfl
        exact h.waiting.numbered.not_contains_size (Option.isSome_of_eq_some hx)
      rw [step_eq (perform_wait hu), Board.wait_eq hf, wakes, wakes]
      simp only [Keyed.get?_insert, if_neg hne]
    · exact hsame (if_neg hu)
  | poll u =>
    by_cases hu : w.board.waiters.contains u
    · obtain ⟨y, hy⟩ := Option.isSome_iff_exists.1 hu
      rw [step_eq (perform_poll hu), wakes, wakes]
      simp only [Board.poll, hy, Keyed.get?_insert]
      split
      · next heq =>
        subst heq
        rw [hy]
        exact Waiter.poll_wakes _ y
      · rfl
    · exact hsame (if_neg hu)

/-- A cancellation wakes those of the family who were told to wait, if it is the first one. -/
lemma wakes_step_cancel (h : w.Sound) (hv : w.past.Waits v t) (u : Nat) :
    let woken := w.past.Kin u t ∧ ¬ w.past.Cancelled t ∧ w.past.Pended v
    (woken → (w.step (.cancel u)).wakes v = w.wakes v + 1) ∧
      (¬ woken → (w.step (.cancel u)).wakes v = w.wakes v) := by
  intro woken
  obtain ⟨x, hx, ht⟩ := h.waiting.waits v t hv
  obtain ⟨-, hfits⟩ := h.waiting.fits v x hx
  have hcancelled := h.families.cancelled_iff ht
  by_cases hu : w.board.tokens.contains u
  · obtain ⟨f, hf⟩ := Option.isSome_iff_exists.1 hu
    have hafter : (w.step (.cancel u)).wakes v = (Board.notifyWaiter f x).wakes := by
      rw [step_eq (perform_cancel hu), Board.cancel_eq hf]
      exact wakes_of_get? ((Keyed.get?_mapValues _ _ _).trans (congrArg _ hx))
    rw [hafter, wakes_of_get? hx]
    by_cases hfamily : x.family = f
    · subst hfamily
      have hwoken : woken ↔ w.past.Pended v ∧ w.board.familyCancelled x.family = false := by
        have hkin := h.families.joined u t x.family hf ht
        rw [← Bool.not_eq_true, hcancelled]
        constructor
        · rintro ⟨-, hnot, hpended⟩
          exact ⟨hpended, hnot⟩
        · rintro ⟨hpended, hnot⟩
          exact ⟨hkin, hnot, hpended⟩
      rw [hwoken]
      exact hfits.notify_wakes
    · have hstranger : ¬ woken := by
        rintro ⟨hkin, -⟩
        have hsame := h.families.get?_eq_of_kin hkin
        rw [hf, ht] at hsame
        exact hfamily (Option.some.inj hsame).symm
      rw [Waiter.notify_of_ne hfamily]
      exact ⟨fun hwoken => absurd hwoken hstranger, fun _ => rfl⟩
  · have hstranger : ¬ woken := by
      rintro ⟨hkin, -⟩
      have hsame := h.families.get?_eq_of_kin hkin
      exact hu (Option.isSome_of_eq_some (hsame.trans ht))
    have hunknown : perform w.board (.cancel u) = (.unknown, w.board) := if_neg hu
    rw [step_eq hunknown]
    exact ⟨fun hwoken => absurd hwoken hstranger, fun _ => rfl⟩

end Wakes

/-- A cancellation reaches every waiter of the family and nobody else. Whatever has been done, a
token reports cancellation just when it or one of its kin was cancelled, and so a check fails. A
waiter is told that its wait is over just when its family is cancelled. It is woken once, by the
first cancellation of its family after it was told to wait, and by nothing else. After a
cancellation of its family its next poll tells it so, be it woken or never polled before. -/
theorem cancellation_reaches_family (steps : List Step) :
    let w := run {} steps
    (∀ t, w.past.Made t →
      (w.board.isCancelled t = true ↔ w.past.Cancelled t) ∧
        (w.answer (.check t) = .checked (.error .cancelled) ↔ w.past.Cancelled t) ∧
        (w.answer (.check t) = .checked (.ok ()) ↔ ¬ w.past.Cancelled t)) ∧
      ∀ v t, w.past.Waits v t →
        (w.answer (.poll v) = .polled true ↔ w.past.Cancelled t) ∧
          (w.answer (.poll v) = .polled false ↔ ¬ w.past.Cancelled t) ∧
          (∀ u, w.past.Kin u t → ¬ w.past.Cancelled t → w.past.Pended v →
            (w.step (.cancel u)).wakes v = w.wakes v + 1) ∧
          (∀ s, ¬ (∃ u, s = .cancel u ∧ w.past.Kin u t ∧ ¬ w.past.Cancelled t ∧ w.past.Pended v) →
            (w.step s).wakes v = w.wakes v) ∧
          ∀ u, w.past.Kin u t → ∀ later,
            ((w.step (.cancel u)).run later).answer (.poll v) = .polled true := by
  intro w
  have hsound : w.Sound := Sound.empty.run steps
  refine ⟨fun t ht => ?tokens, fun v t hv => ?waiters⟩
  case tokens =>
    have hcontains := hsound.families.made t ht
    obtain ⟨f, hf⟩ := Option.isSome_iff_exists.1 hcontains
    have hcancelled := hsound.families.cancelled_iff hf
    have hreports : w.board.isCancelled t = w.board.familyCancelled f := by
      simp only [Board.isCancelled, hf]
    rw [answer, perform_check hcontains, Board.check, hreports, ← hcancelled]
    cases w.board.familyCancelled f <;> simp [checkLive]
  case waiters =>
    obtain ⟨hready, hpending⟩ := hsound.answer_poll hv
    refine ⟨hready, hpending, ?woken, ?silent, ?later⟩
    case woken =>
      intro u hkin hnot hpended
      exact (wakes_step_cancel hsound hv u).1 ⟨hkin, hnot, hpended⟩
    case silent =>
      intro s hs
      by_cases hcancel : ∃ u, s = .cancel u
      · obtain ⟨u, rfl⟩ := hcancel
        exact (wakes_step_cancel hsound hv u).2 fun hwoken => hs ⟨u, rfl, hwoken⟩
      · exact wakes_step_of_ne hsound hv fun u heq => hcancel ⟨u, heq⟩
    case later =>
      intro u hkin later
      have hsub := past_subset_run (w.step (.cancel u)) later
      have hgrows := List.Subset.trans (past_subset_step w (.cancel u)) hsub
      have hdone : (.cancel u, .done) ∈ (w.step (.cancel u)).past := by
        obtain ⟨x, -, ht⟩ := hsound.waiting.waits v t hv
        have hu : w.board.tokens.contains u :=
          Option.isSome_of_eq_some ((hsound.families.get?_eq_of_kin hkin).trans ht)
        rw [step_eq (perform_cancel hu)]
        exact List.mem_append_right _ (List.mem_singleton_self _)
      have hafter : ((w.step (.cancel u)).run later).Sound := (hsound.step _).run later
      exact (hafter.answer_poll (hgrows hv)).1.2 ⟨u, hsub hdone, hkin.mono hgrows⟩

namespace Meeting

/-- A token with a copy and a token that is none of them. A waiter on the first is told to wait, and
so is one on the last, but not a second one on the first. -/
def steps : List Step :=
  [.create, .clone 0, .create, .wait 0, .poll 0, .wait 0, .wait 2, .poll 2]

/-- After these steps. -/
def watch : Watch := run {} steps

/-- Cancelling through the copy wakes the one waiter of the family that was told to wait. The other
one of the family ends at its next poll, and the waiter of the unrelated token still waits. -/
theorem copy_wakes_one :
    (watch.past.Waits 0 0 ∧ watch.past.Pended 0) ∧ watch.past.Waits 1 0 ∧
      (watch.past.Waits 2 2 ∧ watch.past.Pended 2) ∧
      (watch.step (.cancel 1)).wakes 0 = watch.wakes 0 + 1 ∧
      (watch.step (.cancel 1)).wakes 1 = watch.wakes 1 ∧
      (watch.step (.cancel 1)).wakes 2 = watch.wakes 2 ∧
      (∀ later, ((watch.step (.cancel 1)).run later).answer (.poll 0) = .polled true) ∧
      (∀ later, ((watch.step (.cancel 1)).run later).answer (.poll 1) = .polled true) ∧
      (watch.step (.cancel 1)).answer (.poll 2) = .polled false := by
  obtain ⟨htokens, hwaiters⟩ := cancellation_reaches_family steps
  have hwaits : watch.past.Waits 0 0 ∧ watch.past.Waits 1 0 ∧ watch.past.Waits 2 2 :=
    ⟨List.mem_of_getElem? (i := 3) rfl, List.mem_of_getElem? (i := 5) rfl,
      List.mem_of_getElem? (i := 6) rfl⟩
  have hpended : watch.past.Pended 0 ∧ watch.past.Pended 2 :=
    ⟨List.mem_of_getElem? (i := 4) rfl, List.mem_of_getElem? (i := 7) rfl⟩
  have hmade : watch.past.Made 0 := ⟨.create, List.mem_of_getElem? (i := 0) rfl⟩
  have hcopied : watch.past.Copied 0 1 := List.mem_of_getElem? (i := 1) rfl
  have hkin : watch.past.Kin 1 0 := .symm _ _ (.rel _ _ hcopied)
  have hnot : ¬ watch.past.Cancelled 0 := mt (htokens 0 hmade).1.2 (by decide +kernel)
  obtain ⟨-, -, hwoken, -, hfirst⟩ := hwaiters 0 0 hwaits.1
  obtain ⟨-, -, -, -, hsecond⟩ := hwaiters 1 0 hwaits.2.1
  refine ⟨⟨hwaits.1, hpended.1⟩, hwaits.2.1, ⟨hwaits.2.2, hpended.2⟩, hwoken 1 hkin hnot hpended.1,
    ?_, ?_, hfirst 1 hkin, hsecond 1 hkin, rfl⟩
  · decide +kernel
  · decide +kernel

end Meeting

end Saga.Watch
