import Mathlib.Data.List.TakeWhile
import Saga.Proofs.Demo.Tracking

/-!
# What customers ask for

Customers place orders and cancel them, in any order and more than once. What comes of it for an
order before anything is answered depends on two things only: whether it was placed, and whether it
was cancelled after that (`requested`).
-/

namespace Saga.Demo

/-- Whether an event comes from a customer. -/
def OrderEvent.IsRequest : OrderEvent → Prop
  | .placed _ | .cancelled _ => True
  | _ => False

/-- Whether an event places an order. -/
def OrderEvent.places (orderId : String) : OrderEvent → Bool
  | .placed e => e.orderId = orderId
  | _ => false

/-- The events from the first one on that places an order. -/
def sincePlaced (orderId : String) (events : List OrderEvent) : List OrderEvent :=
  events.dropWhile fun event => !event.places orderId

/-- Whether an order is placed by some event. -/
def Placed (orderId : String) (events : List OrderEvent) : Prop :=
  ∃ event ∈ events, event.places orderId = true

/-- Whether an order is cancelled by some event after the first one that places it. -/
def CalledOff (orderId : String) (events : List OrderEvent) : Prop :=
  .cancelled ⟨orderId⟩ ∈ sincePlaced orderId events

instance (orderId : String) (events : List OrderEvent) : Decidable (Placed orderId events) :=
  inferInstanceAs (Decidable (∃ event ∈ events, event.places orderId = true))

instance (orderId : String) (events : List OrderEvent) : Decidable (CalledOff orderId events) :=
  inferInstanceAs (Decidable (_ ∈ _))

/-- What requests come to for an order. -/
inductive Requested (orderId : String) (events : List OrderEvent) : Progress → Prop where
  | unknown : ¬ Placed orderId events → Requested orderId events (none, [])
  | placed : Placed orderId events → ¬ CalledOff orderId events →
    Requested orderId events (some .placed, [.reserve])
  | voided : CalledOff orderId events →
    Requested orderId events (some .cancelled, [.reserve, .voided])

section Concat

variable {orderId : String} {events : List OrderEvent} {event : OrderEvent}

/-- One more event places an order if it is that event, or it was placed before. -/
lemma placed_concat :
    Placed orderId (events ++ [event]) ↔ Placed orderId events ∨ event.places orderId = true := by
  simp [Placed, or_and_right, exists_or]

/-- There is nothing since the placing of an order just if it was not placed. -/
lemma sincePlaced_eq_nil_iff : sincePlaced orderId events = [] ↔ ¬ Placed orderId events := by
  simp [sincePlaced, Placed, List.dropWhile_eq_nil_iff]

/-- An order is called off in the end if it was before, or if it was placed before and is cancelled
now. -/
lemma calledOff_concat :
    CalledOff orderId (events ++ [event]) ↔
      CalledOff orderId events ∨ Placed orderId events ∧ event = .cancelled ⟨orderId⟩ := by
  have happend : sincePlaced orderId (events ++ [event]) =
      if (sincePlaced orderId events).isEmpty then sincePlaced orderId [event]
      else sincePlaced orderId events ++ [event] := List.dropWhile_append
  by_cases hplaced : Placed orderId events
  · have hsome : (sincePlaced orderId events).isEmpty = false := by
      simpa using fun hnone => sincePlaced_eq_nil_iff.1 hnone hplaced
    simp [CalledOff, happend, hsome, hplaced, eq_comm]
  · have hnone := sincePlaced_eq_nil_iff.2 hplaced
    have hfirst : OrderEvent.cancelled ⟨orderId⟩ ∉ sincePlaced orderId [event] := by
      intro hmem
      have hevent := List.mem_singleton.1 (List.dropWhile_subset _ hmem)
      rw [← hevent] at hmem
      cases hmem
    simp [CalledOff, happend, hnone, hplaced, hfirst]

/-- An event that neither places the order for the first time nor calls it off changes nothing of
what was requested. -/
lemma Requested.concat_of_idle {p : Progress} (h : Requested orderId events p)
    (hplaces : ¬ Placed orderId events → event.places orderId = false)
    (hcancels : Placed orderId events → event ≠ .cancelled ⟨orderId⟩) :
    Requested orderId (events ++ [event]) p := by
  cases h with
  | unknown hnone =>
    refine .unknown fun hplaced => ?_
    rcases placed_concat.1 hplaced with hbefore | hnow
    · exact hnone hbefore
    · cases hnow.symm.trans (hplaces hnone)
  | placed hplaced hstands =>
    refine .placed (placed_concat.2 (.inl hplaced)) fun hoff => ?_
    rcases calledOff_concat.1 hoff with hbefore | ⟨-, hevent⟩
    · exact hstands hbefore
    · exact hcancels hplaced hevent
  | voided hoff => exact .voided (calledOff_concat.2 (.inl hoff))

/-- An order that was called off was placed. -/
lemma placed_of_calledOff (h : CalledOff orderId events) : Placed orderId events := by
  by_contra hnone
  rw [CalledOff, sincePlaced_eq_nil_iff.2 hnone] at h
  cases h

end Concat

/-- Requests come to an order that was placed or called off, or to none. -/
lemma requested (orderId : String) {events : List OrderEvent}
    (hrequests : ∀ event ∈ events, event.IsRequest) :
    Requested orderId events (progress none events orderId) := by
  induction events using List.reverseRecOn with
  | nil => exact .unknown (by simp [Placed])
  | append_singleton events event ih =>
    have hevent := hrequests event (List.mem_append_right _ (List.mem_singleton_self _))
    have hbefore := ih fun event hmem => hrequests event (List.mem_append_left _ hmem)
    rw [progress_concat]
    split
    · next hid =>
      subst hid
      generalize progress none events event.orderId = p at hbefore ⊢
      cases event with
      | placed e =>
        cases hbefore with
        | unknown hnone =>
          have hplaces : (OrderEvent.placed e).places e.orderId = true := by
            simp [OrderEvent.places]
          refine .placed (placed_concat.2 (.inr hplaces)) fun hoff => ?_
          rcases calledOff_concat.1 hoff with hbefore | ⟨hbefore, -⟩
          · exact hnone (placed_of_calledOff hbefore)
          · exact hnone hbefore
        | placed hplaced hstands =>
          exact (Requested.placed hplaced hstands).concat_of_idle (absurd hplaced ·) fun _ => nofun
        | voided hoff => exact .voided (calledOff_concat.2 (.inl hoff))
      | cancelled e =>
        cases hbefore with
        | unknown hnone =>
          exact (Requested.unknown hnone).concat_of_idle (fun _ => rfl) (absurd · hnone)
        | placed hplaced hstands => exact .voided (calledOff_concat.2 (.inr ⟨hplaced, rfl⟩))
        | voided hoff => exact .voided (calledOff_concat.2 (.inl hoff))
      | _ => exact hevent.elim
    · next hother =>
      refine hbefore.concat_of_idle (fun _ => ?_) fun _ => ?_
      · cases event with
        | placed e =>
          have hne : e.orderId ≠ orderId := Ne.symm hother
          simpa [OrderEvent.places] using hne
        | _ => rfl
      · rintro rfl
        exact hother rfl

end Saga.Demo
