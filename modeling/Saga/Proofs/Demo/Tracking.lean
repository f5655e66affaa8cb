import Saga.Proofs.Demo.Accounts
import Saga.Proofs.Sequences

/-!
# Orders side by side

Many orders share one host and one outbox, but no event and no answer is about two of them. So how
far an order has come, and what was sent about it, depends on nothing but the events about this
order (`progress`), whatever else was delivered in between (`Tracked.deliverAll`). The same is true
of answers to messages, which depend on the notices of the order alone (`filter_replies`,
`Tracked.respondAll`).
-/

namespace Saga.Demo

/-! ## Deliveries in a row -/

/-- Work on one item whose answer is of no interest, and then on the others. -/
lemma forM_discard_cons {α β ε σ : Type} {f : α → EStateM ε σ β} {a : α} {rest : List α} {b : β}
    {s s' : σ} (hfirst : f a s = .ok b s') :
    (a :: rest).forM (fun a => discard (f a)) s = rest.forM (fun a => discard (f a)) s' := by
  have hdiscard : (discard (f a) : EStateM ε σ Unit) s = .ok () s' := by
    show EStateM.map _ (f a) s = _
    unfold EStateM.map
    rw [hfirst]
  exact EStateM.bind_of_ok hdiscard

/-- What the work on each item keeps, the work on all of them keeps. -/
lemma forM_discard_of_forall {α β ε σ : Type} {f : α → EStateM ε σ β} {P : σ → Prop}
    {items : List α} (hkeeps : ∀ a ∈ items, ∀ s, P s → ∃ b s', f a s = .ok b s' ∧ P s') {s : σ}
    (hs : P s) : ∃ s', items.forM (fun a => discard (f a)) s = .ok () s' ∧ P s' := by
  induction items generalizing s with
  | nil => exact ⟨s, rfl, hs⟩
  | cons a rest ih =>
    obtain ⟨hfirst, hrest⟩ := List.forall_mem_cons.1 hkeeps
    obtain ⟨b, next, hrun, hnext⟩ := hfirst s hs
    obtain ⟨s', hlater, hlast⟩ := ih hrest hnext
    exact ⟨s', (forM_discard_cons hrun).trans hlater, hlast⟩

/-- The progress of an order by the events about it, when nothing was sent before. -/
def progress (stage : Option Stage) (events : List OrderEvent) (orderId : String) : Progress :=
  (events.filter fun event => event.orderId = orderId).foldl Progress.after (stage, [])

/-- One more event moves on the order that it is about and no other. -/
lemma progress_concat (stage : Option Stage) (events : List OrderEvent) (event : OrderEvent)
    (orderId : String) :
    progress stage (events ++ [event]) orderId =
      if orderId = event.orderId then (progress stage events orderId).after event
      else progress stage events orderId := by
  unfold progress
  rw [List.filter_append, List.foldl_append]
  split
  · next heq => simp [heq]
  · next hne => simp [Ne.symm hne]

/-- A notice of an order. -/
abbrev Letter := String × Notice

/-- The message in which a letter is sent. -/
def Letter.envelope (letter : Letter) : Envelope := letter.2.envelope letter.1

/-- The notices of one order. -/
def noticesOf (orderId : String) (letters : List Letter) : List Notice :=
  (letters.filter fun letter => letter.1 = orderId).map Prod.snd

/-- The notices of an order in two parts of a list are those in each. -/
lemma noticesOf_append (orderId : String) (letters more : List Letter) :
    noticesOf orderId (letters ++ more) = noticesOf orderId letters ++ noticesOf orderId more := by
  simp [noticesOf]

/-- Letters about one order are notices of that order only. -/
lemma noticesOf_map (orderId other : String) (notices : List Notice) :
    noticesOf orderId (notices.map fun notice => (other, notice)) =
      if orderId = other then notices else [] := by
  unfold noticesOf
  split
  · next heq => simp [List.filter_map, Function.comp_def, heq]
  · next hne => simp [List.filter_map, Function.comp_def, Ne.symm hne]

/-- The envelopes about an order are those of its notices. -/
lemma about_letters (orderId : String) (letters : List Letter) :
    about orderId (letters.map Letter.envelope) =
      (noticesOf orderId letters).map (Notice.envelope orderId) := by
  induction letters with
  | nil => rfl
  | cons letter rest ih =>
    obtain ⟨other, notice⟩ := letter
    have hof : orderOf (Letter.envelope (other, notice)) = some other :=
      orderOf_envelope other notice
    unfold about noticesOf at *
    by_cases heq : other = orderId
    · subst heq
      rw [List.map_cons, List.filter_cons_of_pos (by simp [hof]), ih,
        List.filter_cons_of_pos (by simp)]
      rfl
    · simp [hof, heq, ih]

/-- Whether a host has had just these events, all of which reached their orders, since its outbox
was empty and its orders were in these stages. -/
structure Tracked (stages : String → Option Stage) (events : List OrderEvent) (h : OrderHost) :
    Prop where
  attended : Attended h
  rows : ∀ id, orderRow h.engine.store id = (progress (stages id) events id).1.map Stage.ordinal
  outbox : ∃ letters : List Letter, h.engine.store.outbox = letters.map Letter.envelope ∧
    (∀ letter ∈ letters, isBlank letter.1 = false) ∧
    ∀ id, noticesOf id letters = (progress (stages id) events id).2

namespace Tracked

variable {stages : String → Option Stage} {events : List OrderEvent} {h : OrderHost}

/-- One more event reaches its order. -/
lemma deliver (ht : Tracked stages events h) {event : OrderEvent}
    (hid : isBlank event.orderId = false) :
    ∃ report h', Demo.deliver event false h = .ok report h' ∧
      Tracked stages (events ++ [event]) h' := by
  obtain ⟨report, h', hdeliver, hattended, heffect⟩ := deliver_heard ht.attended event false
  have hreaches : reaches event false = true := by simp [reaches, hid]
  unfold Effect at heffect
  rw [if_pos hreaches] at heffect
  obtain ⟨more, hhear, hmore⟩ :=
    hear_progress (progress (stages event.orderId) events event.orderId)
    event
  have hreached : hear (orderRow h.engine.store event.orderId) event = _ :=
    (congrArg (hear · event) (ht.rows event.orderId)).trans hhear
  refine ⟨report, h', hdeliver, hattended, ?rows, ?outbox⟩
  case rows =>
    intro id
    rw [heffect.rows, progress_concat]
    split
    · next heq => rw [heq, hreached]
    · exact ht.rows id
  case outbox =>
    obtain ⟨letters, houtbox, hids, hnotices⟩ := ht.outbox
    refine ⟨letters ++ more.map fun notice => (event.orderId, notice), ?_, ?_, fun id => ?_⟩
    · rw [heffect.outbox, hreached, houtbox, List.map_append, List.map_map]
      rfl
    · intro letter hmem
      rcases List.mem_append.1 hmem with hold | hnew
      · exact hids letter hold
      · obtain ⟨notice, -, rfl⟩ := List.mem_map.1 hnew
        exact hid
    · rw [noticesOf_append, hnotices, noticesOf_map, progress_concat]
      split
      · next heq => rw [heq, hmore]
      · rw [List.append_nil]

/-- Any number of events reach their orders one after the other. -/
lemma deliverAll (ht : Tracked stages events h) {more : List OrderEvent}
    (hids : ∀ event ∈ more, isBlank event.orderId = false) :
    ∃ h', more.forM (fun event => discard (Demo.deliver event false)) h = .ok () h' ∧
      Tracked stages (events ++ more) h' := by
  induction more generalizing events h with
  | nil =>
    rw [List.append_nil]
    exact ⟨h, rfl, ht⟩
  | cons event rest ih =>
    obtain ⟨hid, hrest⟩ := List.forall_mem_cons.1 hids
    obtain ⟨report, next, hdeliver, hnext⟩ := ht.deliver hid
    obtain ⟨h', hrun, hlast⟩ := ih hnext hrest
    refine ⟨h', ?_, by rwa [List.append_cons]⟩
    exact (forM_discard_cons (f := fun event => Demo.deliver event false) hdeliver).trans hrun

end Tracked

/-! ## Answers in a row -/

/-- The event that answers a notice about an order. -/
def Notice.reply (orderId : String) : Notice → Option OrderEvent
  | reserve => some (.stockReserved ⟨orderId⟩)
  | capture => some (.paymentCaptured ⟨orderId⟩)
  | ship => some (.shipped ⟨orderId, "TRK-" ++ orderId⟩)
  | _ => none

/-- The event with which a letter is answered, if it is one that asks for something. -/
def Letter.reply (letter : Letter) : Option OrderEvent := letter.2.reply letter.1

/-- A letter is answered by its reply. -/
lemma answer_letter (letter : Letter) : answer letter.envelope = .ok letter.reply := by
  obtain ⟨orderId, notice⟩ := letter
  cases notice <;> rfl

/-- The reply to a letter is about the order of the letter. -/
lemma orderId_of_reply {letter : Letter} {event : OrderEvent} (h : letter.reply = some event) :
    event.orderId = letter.1 := by
  obtain ⟨orderId, notice⟩ := letter
  cases notice <;> cases h <;> rfl

/-- The replies about an order are those to its notices. -/
lemma filter_replies (orderId : String) (letters : List Letter) :
    ((letters.filterMap Letter.reply).filter fun event => event.orderId = orderId) =
      (noticesOf orderId letters).filterMap (Notice.reply orderId) := by
  unfold noticesOf
  rw [List.filter_filterMap, List.filterMap_map, List.filterMap_filter]
  refine List.filterMap_congr fun letter _ => ?_
  cases hreply : letter.reply with
  | none =>
    split
    · next heq =>
      rw [← of_decide_eq_true heq]
      exact hreply.symm
    · rfl
  | some event =>
    have hid := orderId_of_reply hreply
    by_cases heq : letter.1 = orderId
    · subst heq
      have hown : letter.2.reply letter.1 = some event := hreply
      simp [hid, hown]
    · simp [hid, heq]

namespace Tracked

variable {stages : String → Option Stage} {events : List OrderEvent} {h : OrderHost}

/-- Any number of letters are answered one after the other. -/
lemma respondAll (ht : Tracked stages events h) {letters : List Letter}
    (hids : ∀ letter ∈ letters, isBlank letter.1 = false) :
    ∃ h', (letters.map Letter.envelope).forM (fun e => discard (respond e false)) h = .ok () h' ∧
      Tracked stages (events ++ letters.filterMap Letter.reply) h' := by
  induction letters generalizing events h with
  | nil =>
    rw [List.filterMap_nil, List.append_nil]
    exact ⟨h, rfl, ht⟩
  | cons letter rest ih =>
    obtain ⟨hid, hrest⟩ := List.forall_mem_cons.1 hids
    have hrespond := respond_apply letter.envelope false h
    rw [answer_letter] at hrespond
    cases hreply : letter.reply with
    | none =>
      rw [hreply] at hrespond
      -- A notice without a reply goes to the log and nowhere else.
      obtain ⟨log, hrun⟩ := hrespond
      have hnext : Tracked stages events { h with engine := { h.engine with log } } :=
        ⟨⟨ht.attended.handlers, ht.attended.trusted⟩, ht.rows, ht.outbox⟩
      obtain ⟨h', hrun', hlast⟩ := ih hnext hrest
      refine ⟨h', ?_, by rwa [List.filterMap_cons_none hreply]⟩
      exact (forM_discard_cons (f := fun e => respond e false) hrun).trans hrun'
    | some event =>
      rw [hreply] at hrespond
      have hreached : isBlank event.orderId = false := by rwa [orderId_of_reply hreply]
      obtain ⟨report, next, hdeliver, hnext⟩ := ht.deliver hreached
      cases hdeliver
      obtain ⟨h', hrun', hlast⟩ := ih hnext hrest
      refine ⟨h', ?_, by rwa [List.filterMap_cons_some hreply, List.append_cons]⟩
      exact (forM_discard_cons (f := fun e => respond e false) hrespond).trans hrun'

end Tracked

end Saga.Demo
