import Saga.Proofs.Script.Refusals

/-!
# Scripts under a regime

A regime says of each request whether it may be made, which answers it can meet, and what is known
once it has met one (`Regime`). That a script keeps to a regime, whatever it is answered, is a
judgement on scripts (`Script.Heeds`). It goes along with sequencing, so it holds of a dispatch
because it holds of its stages. Where the answers that a delivery gives are among those that the
regime foresees (`Regime.Secures`), a turn leaves a script that still keeps to it
(`Script.Heeds.moved`).

The knowledge `γ` is what a theorem wants to remember of the requests so far.
-/

namespace Saga

variable {σ M ε ε' α β γ : Type}

/-- What is asked of a script, request by request. -/
structure Regime (M ε γ : Type) where
  /-- Whether a request may be made. -/
  permits : γ → Request M → Prop := fun _ _ => True
  /-- Whether a request can meet an answer. -/
  meets : γ → (r : Request M) → Except EngineError r.Answer → Prop := fun _ _ _ => True
  /-- What is known once a request has met an answer. -/
  after : γ → (r : Request M) → Except EngineError r.Answer → γ := fun known _ _ => known
  /-- Whether a script may fail with an error. -/
  fails : ε → Prop := fun _ => True

namespace Script

/-- What a turn that forwards nothing makes of a script and of its delivery. -/
inductive Moved (d : Delivery σ M) :
    Script σ M ε α → Script σ M ε α → Delivery σ M → Prop where
  /-- There is nothing left to do. -/
  | ended {rest} : Moved d rest rest d
  | app {change next} : Moved d (.app change next) (next d.app) { d with app := change d.app }
  | refused {r next error} : r.Meets (.error error) → error.Refusal →
    Moved d (.request r next) (next (.error error)) d
  | answered {r next answer d'} : d.Does r answer d' →
    Moved d (.request r next) (next (.ok answer)) d'

/-- Whether a script keeps to a regime, and ends with a result that has the property `post` for what
is known then. -/
def Heeds (regime : Regime M ε γ) (post : γ → α → Prop) : γ → Script σ M ε α → Prop
  | known, done a => post known a
  | _, fail e => regime.fails e
  | known, app _ next => ∀ x, Heeds regime post known (next x)
  | known, request r next => regime.permits known r ∧
    ∀ answer, regime.meets known r answer →
      Heeds regime post (regime.after known r answer) (next answer)

variable {regime : Regime M ε γ} {post : γ → α → Prop} {post' : γ → β → Prop} {known : γ}

namespace Heeds

/-- A script made of two keeps to a regime when the second does wherever the first ends. -/
lemma bind {s : Script σ M ε α} {f : α → Script σ M ε β} (hs : s.Heeds regime post known)
    (hf : ∀ known a, post known a → (f a).Heeds regime post' known) :
    (s.bind f).Heeds regime post' known := by
  induction s generalizing known with
  | done a => exact hf known a hs
  | fail e => exact hs
  | app change next ih =>
    intro x
    exact ih x (hs x)
  | request r next ih =>
    obtain ⟨hpermits, hnext⟩ := hs
    refine ⟨hpermits, ?_⟩
    intro answer hmeets
    exact ih answer (hnext answer hmeets)

/-- A request that fails the script with its error keeps to a regime if it may be made and the
script may so fail. -/
lemma ask [FromEngine ε] {r : Request M} {post : γ → r.Answer → Prop}
    (hpermits : regime.permits known r)
    (herror : ∀ e, regime.meets known r (.error e) → regime.fails (FromEngine.ofEngine e))
    (hok : ∀ a, regime.meets known r (.ok a) → post (regime.after known r (.ok a)) a) :
    (Script.ask r : Script σ M ε r.Answer).Heeds regime post known := by
  refine ⟨hpermits, ?_⟩
  intro answer hmeets
  cases answer with
  | error e => exact herror e hmeets
  | ok a => exact hok a hmeets

/-- A script without a forbidden request keeps to a regime that learns nothing from the others. -/
lemma of_only {p : Request M → Prop} {s : Script σ M ε' α} (hs : s.Only p) (f : ε' → ε)
    (hpermits : ∀ r, p r → regime.permits known r)
    (hafter : ∀ r answer, p r → regime.after known r answer = known)
    (hfails : ∀ e, regime.fails (f e)) :
    (s.mapError f).Heeds regime (fun known' _ => known' = known) known := by
  induction s with
  | done a => rfl
  | fail e => exact hfails e
  | app change next ih =>
    intro x
    exact ih x (hs x)
  | request r next ih =>
    obtain ⟨hr, hnext⟩ := hs
    refine ⟨hpermits r hr, ?_⟩
    intro answer _
    rw [hafter r answer hr]
    exact ih answer (hnext answer)

end Heeds

end Script

/-- Whether every turn under a regime takes a delivery, given what is known, to where `after` holds.
-/
structure Regime.Secures (regime : Regime M ε γ) (known : γ) (d : Delivery σ M)
    (after : γ → Delivery σ M → Prop) : Prop where
  ended : after known d
  app : ∀ change : σ → σ, after known { d with app := change d.app }
  refused : ∀ r e, e.Refusal →
    regime.meets known r (.error e) ∧ after (regime.after known r (.error e)) d
  answered : ∀ r (answer : r.Answer) d', regime.permits known r → d.Does r answer d' →
    regime.meets known r (.ok answer) ∧ after (regime.after known r (.ok answer)) d'

/-- A turn of a script that keeps to a regime leaves one that does, for something that is known of
the delivery then. -/
lemma Script.Heeds.moved {regime : Regime M ε γ} {post : γ → α → Prop} {known : γ}
    {rest rest' : Script σ M ε α} {d d' : Delivery σ M} {after : γ → Delivery σ M → Prop}
    (hrest : rest.Heeds regime post known) (hmoved : Script.Moved d rest rest' d')
    (hsecures : regime.Secures known d after) :
    ∃ known', rest'.Heeds regime post known' ∧ after known' d' := by
  cases hmoved with
  | ended => exact ⟨known, hrest, hsecures.ended⟩
  | app => exact ⟨known, hrest d.app, hsecures.app _⟩
  | @refused r next error _ hrefusal =>
    obtain ⟨hmeets, hafter⟩ := hsecures.refused r error hrefusal
    exact ⟨_, hrest.2 _ hmeets, hafter⟩
  | @answered r next answer d' hdoes =>
    obtain ⟨hmeets, hafter⟩ := hsecures.answered r answer d' hrest.1 hdoes
    exact ⟨_, hrest.2 _ hmeets, hafter⟩

/-- A run of a script that keeps to a regime ends as the regime allows, in a delivery where all is
known that every turn under the regime lets one know. -/
lemma Script.Heeds.run {regime : Regime M ε γ} {post : γ → α → Prop} {known : γ}
    {script : Script σ M ε α} {scope : Scope σ M} {d : Delivery σ M} {I : γ → Delivery σ M → Prop}
    (hscript : script.Heeds regime post known) (hown : scope.services.OfSession)
    (hinside : ∀ known r, regime.permits known r → ¬ r.Forwards)
    (hsecures : ∀ known d, I known d → regime.Secures known d I) (hd : I known d) :
    ∃ known', I known' (Run.final (script.run scope d)) ∧
      (∀ a, Run.result (script.run scope d) = .ok a → post known' a) ∧
      ∀ e, Run.result (script.run scope d) = .error e → regime.fails e := by
  induction script generalizing known d with
  | done a =>
    refine ⟨known, hd, ?_, nofun⟩
    rintro _ ⟨⟩
    exact hscript
  | fail e =>
    refine ⟨known, hd, nofun, ?_⟩
    rintro _ ⟨⟩
    exact hscript
  | app change next ih => exact ih d.app (hscript d.app) ((hsecures known d hd).app change)
  | request r next ih =>
    obtain ⟨hpermits, hnext⟩ := hscript
    rw [Script.run_request]
    rcases Scope.perform_cases hown (hinside known r hpermits) d with
      ⟨e, hperform⟩ | ⟨answer, d', hperform, hdoes⟩
    · have hrefusal := Scope.perform_refusal hown (hinside known r hpermits) hperform
      obtain ⟨hmeets, hafter⟩ := (hsecures known d hd).refused r e hrefusal
      rw [hperform]
      exact ih (.error e) (hnext _ hmeets) hafter
    · obtain ⟨hmeets, hafter⟩ := (hsecures known d hd).answered r answer d' hpermits hdoes
      rw [hperform]
      exact ih (.ok answer) (hnext _ hmeets) hafter

end Saga
