import Saga.Proofs.Cancellation.Families

/-!
# Waiters on families

The loop of a waiter looks at the signal only when it has a turn, so that no wake-up is lost is a
matter of the invariant: a waiter that is registered has been told to wait, and its family is not
cancelled (`Waiter.Fits`). Every step keeps it (`Watch.Sound.step`).
-/

namespace Saga

namespace Waiter

/-- Whether the stage of a waiter goes with the signal of its family and with whether it was told to
wait. -/
def Fits (w : Waiter) (cancelled : Bool) (pended : Prop) : Prop :=
  match w.stage with
  | .idle => ¬ pended
  | .registered => pended ∧ cancelled = false
  | .notified | .finished => cancelled = true

variable {w : Waiter} {cancelled : Bool} {pended : Prop}

/-- A poll answers by the signal, also where it does not look at it. -/
lemma Fits.poll_finished_iff (h : w.Fits cancelled pended) :
    (Board.pollWaiter cancelled w).stage = .finished ↔ cancelled = true := by
  unfold Fits at h
  unfold Board.pollWaiter
  cases hstage : w.stage with
  | idle => cases cancelled <;> simp [Board.takeTurn]
  | registered =>
    rw [hstage] at h
    simp [hstage, h.2]
  | notified =>
    rw [hstage] at h
    simp [Board.takeTurn, show cancelled = true from h]
  | finished =>
    rw [hstage] at h
    simp [hstage, show cancelled = true from h]

/-- A poll leaves the stage of a waiter in step with the signal. Unless the signal is there, the
waiter has now been told to wait. -/
lemma Fits.poll (h : w.Fits cancelled pended) :
    (Board.pollWaiter cancelled w).Fits cancelled (pended ∨ cancelled = false) := by
  unfold Fits at h
  unfold Board.pollWaiter
  cases hstage : w.stage with
  | idle => cases cancelled <;> simp [Board.takeTurn, Fits]
  | registered =>
    rw [hstage] at h
    simp [Fits, hstage, h.1, h.2]
  | notified =>
    rw [hstage] at h
    simp [Board.takeTurn, Fits, show cancelled = true from h]
  | finished =>
    rw [hstage] at h
    simp [Fits, hstage, show cancelled = true from h]

/-- A poll leaves a waiter with its family. -/
lemma poll_family (cancelled : Bool) (w : Waiter) :
    (Board.pollWaiter cancelled w).family = w.family := by
  unfold Board.pollWaiter Board.takeTurn
  cases w.stage <;> cases cancelled <;> rfl

/-- A poll does not count as a wake. -/
lemma poll_wakes (cancelled : Bool) (w : Waiter) :
    (Board.pollWaiter cancelled w).wakes = w.wakes := by
  unfold Board.pollWaiter Board.takeTurn
  cases w.stage <;> cases cancelled <;> rfl

/-- A notification leaves a waiter with its family. -/
lemma notify_family (family : Nat) (w : Waiter) :
    (Board.notifyWaiter family w).family = w.family := by
  unfold Board.notifyWaiter
  split <;> rfl

/-- Notifying a family does nothing to a waiter of another one. -/
lemma notify_of_ne {family : Nat} (h : w.family ≠ family) : Board.notifyWaiter family w = w := by
  simp [Board.notifyWaiter, h]

/-- A notification brings the stage of a waiter in step with a signal that is there. -/
lemma Fits.notify (h : w.Fits cancelled pended) :
    (Board.notifyWaiter w.family w).Fits true pended := by
  unfold Fits at h
  unfold Board.notifyWaiter
  cases hstage : w.stage with
  | registered => simp [Fits]
  | idle =>
    rw [hstage] at h
    simpa [Fits, hstage] using h
  | notified => simp [Fits, hstage]
  | finished => simp [Fits, hstage]

/-- A cancellation wakes a waiter of the family once if it was told to wait, and only the first one
does. -/
lemma Fits.notify_wakes (h : w.Fits cancelled pended) :
    (pended ∧ cancelled = false → (Board.notifyWaiter w.family w).wakes = w.wakes + 1) ∧
      (¬ (pended ∧ cancelled = false) → (Board.notifyWaiter w.family w).wakes = w.wakes) := by
  unfold Fits at h
  unfold Board.notifyWaiter
  cases hstage : w.stage <;> simp_all

end Waiter

namespace Watch

/-- Whether the waiters of a board are where a history has brought them. -/
structure Waiting (b : Board Nat Nat) (past : History) : Prop where
  numbered : b.waiters.Numbered
  waits : ∀ w t, past.Waits w t →
    ∃ x, b.waiters.get? w = some x ∧ b.tokens.get? t = some x.family
  pended : ∀ w, past.Pended w → b.waiters.contains w
  fits : ∀ w x, b.waiters.get? w = some x →
    x.family < b.families.length ∧ x.Fits (b.familyCancelled x.family) (past.Pended w)

namespace Waiting

variable {b b' : Board Nat Nat} {past : History} {s : Step} {a : Answer}

/-- What is done without waiters leaves them alone, though there may be more tokens. -/
lemma note (h : Waiting b past) (hwaiters : b'.waiters = b.waiters)
    (htokens : ∀ t f, b.tokens.get? t = some f → b'.tokens.get? t = some f)
    (hlength : b.families.length ≤ b'.families.length)
    (hsignal : ∀ f, b'.familyCancelled f = b.familyCancelled f)
    (hwaiter : ∀ w, a ≠ .waiter w) (hpolled : a ≠ .polled false) :
    Waiting b' (past ++ [(s, a)]) := by
  have hpended : ∀ w, History.Pended (past ++ [(s, a)]) w ↔ past.Pended w := by
    intro w
    simp only [History.pended_concat, hpolled, and_false, or_false]
  refine ⟨?numbered, ?waits, ?pended, ?fits⟩
  all_goals rw [hwaiters]
  case numbered => exact h.numbered
  case waits =>
    intro w t hwaits
    obtain ⟨x, hx, ht⟩ := h.waits w t
      ((History.waits_concat.1 hwaits).resolve_right fun hnew => hwaiter w hnew.2)
    exact ⟨x, hx, htokens t x.family ht⟩
  case pended => exact fun w hw => h.pended w ((hpended w).1 hw)
  case fits =>
    intro w x hx
    obtain ⟨hfamily, hfits⟩ := h.fits w x hx
    refine ⟨Nat.lt_of_lt_of_le hfamily hlength, ?_⟩
    rw [hsignal, hpended]
    exact hfits

/-- A waiter that is made was never told to wait. -/
lemma wait (h : Waiting b past) {t f : Nat} (ht : b.tokens.get? t = some f)
    (hf : f < b.families.length) :
    Waiting (b.wait t b.waiters.size) (past ++ [(.wait t, .waiter b.waiters.size)]) := by
  have hpended : ∀ w, History.Pended (past ++ [(.wait t, .waiter b.waiters.size)]) w ↔
      past.Pended w := by
    intro w
    simp only [History.pended_concat, reduceCtorEq, false_and, or_false]
  rw [Board.wait_eq ht]
  refine ⟨?numbered, ?waits, ?pended, ?fits⟩
  case numbered => exact h.numbered.insert_size _
  case waits =>
    intro w u hwaits
    show ∃ x, (b.waiters.insert b.waiters.size _).get? w = some x ∧ b.tokens.get? u = some x.family
    rcases History.waits_concat.1 hwaits with hold | ⟨hstep, hanswer⟩
    · obtain ⟨x, hx, hu⟩ := h.waits w u hold
      exact ⟨x, h.numbered.get?_insert_size hx _, hu⟩
    · cases hstep
      cases hanswer
      exact ⟨_, (Keyed.get?_insert _ _ _ _).trans (if_pos rfl), ht⟩
  case pended =>
    intro w hw
    exact (Keyed.contains_insert _ _ _ _).2 (.inr (h.pended w ((hpended w).1 hw)))
  case fits =>
    intro w x hx
    rw [hpended]
    change (b.waiters.insert b.waiters.size _).get? w = some x at hx
    rw [Keyed.get?_insert] at hx
    split at hx
    · next heq =>
      cases hx
      refine ⟨hf, fun hpended' => ?_⟩
      exact h.numbered.not_contains_size (heq ▸ h.pended w hpended')
    · exact h.fits w x hx

/-- A poll answers by the signal of the family, and notes the answer. -/
lemma poll (h : Waiting b past) {w : Nat} {x : Waiter} (hx : b.waiters.get? w = some x) :
    (b.poll w).1 = b.familyCancelled x.family ∧
      Waiting (b.poll w).2 (past ++ [(.poll w, .polled (b.poll w).1)]) := by
  obtain ⟨hfamily, hfits⟩ := h.fits w x hx
  let y := Board.pollWaiter (b.familyCancelled x.family) x
  have hpoll : b.poll w = (decide (y.stage = .finished), { b with
      waiters := b.waiters.insert w y }) := by
    simp only [Board.poll, hx]
    rfl
  have hready : decide (y.stage = .finished) = b.familyCancelled x.family := by
    rw [Bool.eq_iff_iff, decide_eq_true_iff]
    exact hfits.poll_finished_iff
  have hcontains : b.waiters.contains w := Option.isSome_of_eq_some hx
  have hpended : ∀ v,
      History.Pended (past ++ [(.poll w, .polled (decide (y.stage = .finished)))]) v ↔
        past.Pended v ∨ w = v ∧ b.familyCancelled x.family = false := by
    intro v
    rw [History.pended_concat, hready]
    simp
  rw [hpoll]
  refine ⟨hready, ?numbered, ?waits, ?pended, ?fits⟩
  case numbered => exact h.numbered.insert hcontains y
  case waits =>
    intro v t hwaits
    obtain ⟨z, hz, ht⟩ := h.waits v t ((History.waits_concat.1 hwaits).resolve_right nofun)
    show ∃ z, (b.waiters.insert w y).get? v = some z ∧ b.tokens.get? t = some z.family
    rw [Keyed.get?_insert]
    split
    · next heq =>
      subst heq
      cases hx.symm.trans hz
      exact ⟨y, rfl, ht.trans (congrArg some (Waiter.poll_family _ x).symm)⟩
    · exact ⟨z, hz, ht⟩
  case pended =>
    intro v hv
    rcases History.pended_concat.1 hv with hold | ⟨hstep, -⟩
    · exact (Keyed.contains_insert _ _ _ _).2 (.inr (h.pended v hold))
    · cases hstep
      exact (Keyed.contains_insert _ _ _ _).2 (.inl rfl)
  case fits =>
    intro v z hz
    change (b.waiters.insert w y).get? v = some z at hz
    rw [Keyed.get?_insert] at hz
    split at hz
    · next heq =>
      subst heq
      cases hz
      rw [Waiter.poll_family]
      refine ⟨hfamily, ?_⟩
      rw [hpended, and_iff_right rfl]
      exact hfits.poll
    · next hne =>
      obtain ⟨hbound, hfits'⟩ := h.fits v z hz
      refine ⟨hbound, ?_⟩
      rw [hpended, or_iff_left fun hnew => hne hnew.1]
      exact hfits'

/-- A cancellation does with each waiter of the family what becomes it, and nothing with others. -/
lemma cancel (h : Waiting b past) {t f : Nat} (ht : b.tokens.get? t = some f)
    (hf : f < b.families.length) :
    Waiting (b.cancel t) (past ++ [(.cancel t, .done)]) := by
  have hsignal := Board.familyCancelled_cancel ht hf
  have htokens : (b.cancel t).tokens = b.tokens := by rw [Board.cancel_eq ht]
  have hwaiters : (b.cancel t).waiters = b.waiters.mapValues (Board.notifyWaiter f) := by
    rw [Board.cancel_eq ht]
  have hlength : (b.cancel t).families.length = b.families.length := by
    rw [Board.cancel_eq ht, List.length_set]
  have hcontains : ∀ w, (b.waiters.mapValues (Board.notifyWaiter f)).contains w =
      b.waiters.contains w := by
    intro w
    rw [Keyed.contains, Keyed.get?_mapValues, Option.isSome_map]
    rfl
  have hsize : (b.waiters.mapValues (Board.notifyWaiter f)).size = b.waiters.size :=
    List.length_map _
  have hpended : ∀ w, History.Pended (past ++ [(.cancel t, .done)]) w ↔ past.Pended w := by
    intro w
    simp only [History.pended_concat, reduceCtorEq, false_and, or_false]
  refine ⟨?numbered, ?waits, ?pended, ?fits⟩
  all_goals rw [hwaiters]
  case numbered =>
    intro w hw
    rw [hsize]
    exact h.numbered w ((hcontains w).symm.trans hw)
  case waits =>
    intro w u hwaits
    obtain ⟨x, hx, hu⟩ := h.waits w u ((History.waits_concat.1 hwaits).resolve_right nofun)
    rw [htokens, Keyed.get?_mapValues, hx]
    exact ⟨_, rfl, hu.trans (congrArg some (Waiter.notify_family f x).symm)⟩
  case pended => exact fun w hw => (hcontains w).trans (h.pended w ((hpended w).1 hw))
  case fits =>
    intro w y hy
    rw [Keyed.get?_mapValues] at hy
    obtain ⟨x, hx, rfl⟩ := Option.map_eq_some_iff.1 hy
    obtain ⟨hbound, hfits⟩ := h.fits w x hx
    rw [Waiter.notify_family, hlength, hpended]
    refine ⟨hbound, ?_⟩
    by_cases hfamily : x.family = f
    · subst hfamily
      rw [(hsignal x.family).2 (.inl rfl)]
      exact hfits.notify
    · have hsame : (b.cancel t).familyCancelled x.family = b.familyCancelled x.family := by
        rw [Bool.eq_iff_iff, hsignal]
        simp [hfamily]
      rw [hsame, Waiter.notify_of_ne hfamily]
      exact hfits

end Waiting

/-- Whether a board is as its history tells. -/
structure Sound (w : Watch) : Prop where
  families : Families w.board w.past
  waiting : Waiting w.board w.past

namespace Sound

variable {w : Watch}

/-- A board on which nothing was done is as its empty history tells. -/
lemma empty : Sound {} where
  families := ⟨nofun, nofun, nofun, nofun, nofun, nofun, by simp [Board.familyCancelled]⟩
  waiting := ⟨nofun, nofun, nofun, nofun⟩

/-- A step that does nothing is only noted. -/
lemma note (h : w.Sound) {s : Step} {a : Answer} (hperform : perform w.board s = (a, w.board))
    (htoken : ∀ t, a ≠ .token t) (hdone : a ≠ .done) (hwaiter : ∀ v, a ≠ .waiter v)
    (hpolled : a ≠ .polled false) : (w.step s).Sound := by
  rw [step_eq hperform]
  exact ⟨h.families.note rfl rfl htoken hdone,
    h.waiting.note rfl (fun _ _ => id) (Nat.le_refl _) (fun _ => rfl) hwaiter hpolled⟩

/-- Every step keeps a board as its history tells. -/
lemma step (h : w.Sound) (s : Step) : (w.step s).Sound := by
  have hunknown : perform w.board s = (.unknown, w.board) → (w.step s).Sound :=
    fun hperform => h.note hperform nofun nofun nofun nofun
  cases s with
  | create =>
    refine ⟨h.families.create, h.waiting.note rfl ?_ (Board.length_create _ _)
      (Board.familyCancelled_create _ _) nofun nofun⟩
    exact fun t f ht => h.families.numbered.get?_insert_size ht _
  | clone t =>
    by_cases ht : w.board.tokens.contains t
    · obtain ⟨f, hf⟩ := Option.isSome_iff_exists.1 ht
      rw [step_eq (perform_clone ht)]
      refine ⟨h.families.clone hf, ?_⟩
      rw [Board.clone_eq hf]
      exact h.waiting.note rfl (fun t f ht => h.families.numbered.get?_insert_size ht _)
        (Nat.le_refl _)
        (fun _ => rfl) nofun nofun
    · exact hunknown (if_neg ht)
  | cancel t =>
    by_cases ht : w.board.tokens.contains t
    · obtain ⟨f, hf⟩ := Option.isSome_iff_exists.1 ht
      rw [step_eq (perform_cancel ht)]
      exact ⟨h.families.cancel hf, h.waiting.cancel hf (h.families.bounded t f hf)⟩
    · exact hunknown (if_neg ht)
  | check t =>
    by_cases ht : w.board.tokens.contains t
    · exact h.note (perform_check ht) nofun nofun nofun nofun
    · exact hunknown (if_neg ht)
  | wait t =>
    by_cases ht : w.board.tokens.contains t
    · obtain ⟨f, hf⟩ := Option.isSome_iff_exists.1 ht
      rw [step_eq (perform_wait ht)]
      refine ⟨?_, h.waiting.wait hf (h.families.bounded t f hf)⟩
      rw [Board.wait_eq hf]
      exact h.families.note rfl rfl nofun nofun
    · exact hunknown (if_neg ht)
  | poll v =>
    by_cases hv : w.board.waiters.contains v
    · obtain ⟨x, hx⟩ := Option.isSome_iff_exists.1 hv
      rw [step_eq (perform_poll hv)]
      refine ⟨?_, (h.waiting.poll hx).2⟩
      simp only [Board.poll, hx]
      exact h.families.note rfl rfl nofun nofun
    · exact hunknown (if_neg hv)

/-- After any steps a board is as its history tells. -/
lemma run (h : w.Sound) (steps : List Step) : (w.run steps).Sound := by
  induction steps generalizing w with
  | nil => exact h
  | cons s rest ih => exact ih (h.step s)

end Sound

end Watch

end Saga
