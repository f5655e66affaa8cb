import Saga.Proofs.Cancellation.Watch

/-!
# Families of tokens

Tokens are in one family when they are copies of each other, and a family is cancelled when one of
its tokens was (`Watch.Families.cancelled_iff`). Making, copying and cancelling tokens keeps it so,
and nothing else touches the families.
-/

namespace Saga

namespace Keyed

variable {κ ν : Type} [DecidableEq κ] {t : Keyed κ ν} {k : κ}

omit [DecidableEq κ] in
/-- A table is as large as its list of keys is long. -/
lemma size_eq_length_keys (t : Keyed κ ν) : t.size = t.keys.length := (List.length_map _).symm

/-- A new value under a key that is there does not make the table larger. -/
lemma size_insert_of_contains (h : t.contains k) (v : ν) : (t.insert k v).size = t.size := by
  rw [size_eq_length_keys, keys_insert, if_pos ((contains_iff_mem_keys t k).1 h),
    size_eq_length_keys]

/-- A new key makes the table larger by one. -/
lemma size_insert_of_not_contains (h : ¬ t.contains k) (v : ν) :
    (t.insert k v).size = t.size + 1 := by
  rw [size_eq_length_keys, keys_insert, if_neg (mt (contains_iff_mem_keys t k).2 h),
    List.length_append, size_eq_length_keys]
  rfl

/-- Whether the keys are numbers below the number of entries, so that this number is free. -/
def Numbered (t : Keyed Nat ν) : Prop := ∀ k, t.contains k → k < t.size

namespace Numbered

variable {t : Keyed Nat ν} {k : Nat} {v : ν}

/-- The number of entries is not among the keys. -/
lemma not_contains_size (h : t.Numbered) : ¬ t.contains t.size :=
  fun hsize => Nat.lt_irrefl _ (h _ hsize)

/-- What was looked up before is found after an entry was added. -/
lemma get?_insert_size (h : t.Numbered) (hk : t.get? k = some v) (v' : ν) :
    (t.insert t.size v').get? k = some v := by
  rw [Keyed.get?_insert, if_neg, hk]
  rintro rfl
  exact h.not_contains_size (Option.isSome_of_eq_some hk)

/-- Adding an entry under the free number leaves the keys numbered. -/
lemma insert_size (h : t.Numbered) (v : ν) : (t.insert t.size v).Numbered := by
  intro k hk
  rw [size_insert_of_not_contains h.not_contains_size]
  rcases (contains_insert _ _ _ _).1 hk with rfl | hold
  · exact Nat.lt_succ_self _
  · exact Nat.lt_succ_of_lt (h k hold)

/-- A new value under a key that is there leaves the keys numbered. -/
lemma insert (h : t.Numbered) (hk : t.contains k) (v : ν) : (t.insert k v).Numbered := by
  intro j hj
  rw [size_insert_of_contains hk]
  rcases (contains_insert _ _ _ _).1 hj with rfl | hold
  · exact h _ hk
  · exact h j hold

end Numbered

end Keyed

namespace Board

variable {τ ω : Type} [DecidableEq τ] {b : Board τ ω} {t : τ} {f : Nat}

/-- Creating a token takes no family away. -/
lemma length_create (b : Board τ ω) (t : τ) :
    b.families.length ≤ (b.create t).families.length :=
  (List.sublist_append_left b.families [false]).length_le

/-- The family of a token that is made is not cancelled, like one that is not there. -/
lemma familyCancelled_create (b : Board τ ω) (t : τ) (f : Nat) :
    (b.create t).familyCancelled f = b.familyCancelled f := by
  simp only [familyCancelled, create, List.getD_eq_getElem?_getD, List.getElem?_append]
  split
  · rfl
  · next hge =>
    rw [List.getElem?_eq_none (Nat.le_of_not_lt hge), List.getElem?_singleton]
    split <;> rfl

/-- A copy of a token joins the family of the token, and nothing else changes. -/
lemma clone_eq (ht : b.tokens.get? t = some f) (u : τ) :
    b.clone t u = { b with tokens := b.tokens.insert u f } := by
  simp only [clone, ht]

/-- A waiter on a token stands with the family of the token, idle and never woken. -/
lemma wait_eq [DecidableEq ω] (ht : b.tokens.get? t = some f) (w : ω) :
    b.wait t w = { b with waiters := b.waiters.insert w { family := f } } := by
  simp only [wait, ht]

/-- Cancelling a token raises the signal of its family and notifies the waiters of that family. -/
lemma cancel_eq (ht : b.tokens.get? t = some f) :
    b.cancel t = { b with
      families := b.families.set f true
      waiters := b.waiters.mapValues (notifyWaiter f) } := by
  simp only [cancel, ht]

/-- A cancellation cancels the family of its token, and no other. -/
lemma familyCancelled_cancel (ht : b.tokens.get? t = some f)
    (hf : f < b.families.length) (g : Nat) :
    (b.cancel t).familyCancelled g = true ↔ g = f ∨ b.familyCancelled g = true := by
  rw [cancel_eq ht]
  simp only [familyCancelled, List.getD_eq_getElem?_getD]
  by_cases hg : g = f
  · subst hg
    simp [hf]
  · rw [List.getElem?_set_ne (Ne.symm hg)]
    simp [hg]

end Board

namespace Watch

/-- Whether the tokens of a board are in families and their signals as a history tells. -/
structure Families (b : Board Nat Nat) (past : History) : Prop where
  numbered : b.tokens.Numbered
  bounded : ∀ t f, b.tokens.get? t = some f → f < b.families.length
  made : ∀ t, past.Made t → b.tokens.contains t
  copied : ∀ t u, past.Copied t u → b.tokens.get? t = b.tokens.get? u
  joined : ∀ t u f, b.tokens.get? t = some f → b.tokens.get? u = some f → past.Kin t u
  signalled : ∀ u, (.cancel u, .done) ∈ past →
    ∃ f, b.tokens.get? u = some f ∧ b.familyCancelled f = true
  caused : ∀ f, b.familyCancelled f = true →
    ∃ u, (.cancel u, .done) ∈ past ∧ b.tokens.get? u = some f

namespace Families

variable {b b' : Board Nat Nat} {past : History} {s : Step} {a : Answer}

/-- Kin are in one family. -/
lemma get?_eq_of_kin (h : Families b past) {t u : Nat} (hkin : past.Kin t u) :
    b.tokens.get? t = b.tokens.get? u := by
  induction hkin with
  | rel t u hcopied => exact h.copied t u hcopied
  | refl t => rfl
  | symm t u _ ih => exact ih.symm
  | trans t u v _ _ ih ih' => exact ih.trans ih'

/-- A family is cancelled when one of its tokens was. -/
lemma cancelled_iff (h : Families b past) {t f : Nat} (ht : b.tokens.get? t = some f) :
    b.familyCancelled f = true ↔ past.Cancelled t := by
  constructor
  · intro hf
    obtain ⟨u, hu, hfamily⟩ := h.caused f hf
    exact ⟨u, hu, h.joined u t f hfamily ht⟩
  · rintro ⟨u, hu, hkin⟩
    obtain ⟨g, hg, hcancelled⟩ := h.signalled u hu
    rw [h.get?_eq_of_kin hkin, ht] at hg
    cases hg
    exact hcancelled

/-- What is done without making or cancelling tokens leaves the families alone. -/
lemma note (h : Families b past) (htokens : b'.tokens = b.tokens)
    (hfamilies : b'.families = b.families) (htoken : ∀ t, a ≠ .token t) (hdone : a ≠ .done) :
    Families b' (past ++ [(s, a)]) := by
  have hsignal : ∀ f, b'.familyCancelled f = b.familyCancelled f := by
    intro f
    rw [Board.familyCancelled, hfamilies]
    rfl
  have hcancel : ∀ u, (.cancel u, .done) ∈ past ++ [(s, a)] ↔ (.cancel u, .done) ∈ past := by
    intro u
    simp only [List.mem_append, List.mem_singleton, Prod.mk.injEq, hdone.symm, and_false, or_false]
  refine ⟨?numbered, ?bounded, ?made, ?copied, ?joined, ?signalled, ?caused⟩
  all_goals rw [htokens]
  case numbered => exact h.numbered
  case bounded =>
    rw [hfamilies]
    exact h.bounded
  case made => exact fun t ht => h.made t ((History.made_concat.1 ht).resolve_right (htoken t))
  case copied =>
    intro t u hcopied
    exact h.copied t u ((History.copied_concat.1 hcopied).resolve_right fun hnew => htoken u hnew.2)
  case joined =>
    exact fun t u f ht hu => (h.joined t u f ht hu).mono (List.subset_append_left _ _)
  case signalled =>
    intro u hu
    obtain ⟨f, hf, hcancelled⟩ := h.signalled u ((hcancel u).1 hu)
    exact ⟨f, hf, (hsignal f).trans hcancelled⟩
  case caused =>
    intro f hf
    obtain ⟨u, hu, hfamily⟩ := h.caused f ((hsignal f).symm.trans hf)
    exact ⟨u, (hcancel u).2 hu, hfamily⟩

/-- A token that is made joins a family of its own, or that of which it is a copy. -/
lemma token (h : Families b past) {f : Nat} (htokens : b'.tokens = b.tokens.insert b.tokens.size f)
    (hlength : b.families.length ≤ b'.families.length) (hf : f < b'.families.length)
    (hsignal : ∀ f, b'.familyCancelled f = b.familyCancelled f)
    (horiginal : ∀ t, s = .clone t → b.tokens.get? t = some f)
    (hjoined : ∀ t, b.tokens.get? t = some f →
      History.Kin (past ++ [(s, .token b.tokens.size)]) t b.tokens.size) :
    Families b' (past ++ [(s, .token b.tokens.size)]) := by
  have hnew : (b.tokens.insert b.tokens.size f).get? b.tokens.size = some f := by
    rw [Keyed.get?_insert, if_pos rfl]
  have hcases : ∀ {t g}, (b.tokens.insert b.tokens.size f).get? t = some g →
      t = b.tokens.size ∧ g = f ∨ b.tokens.get? t = some g := by
    intro t g ht
    rw [Keyed.get?_insert] at ht
    split at ht
    · next heq => exact .inl ⟨heq.symm, (Option.some.inj ht).symm⟩
    · exact .inr ht
  have hsub : past ⊆ past ++ [(s, .token b.tokens.size)] := List.subset_append_left _ _
  refine ⟨?numbered, ?bounded, ?made, ?copied, ?joined, ?signalled, ?caused⟩
  all_goals rw [htokens]
  case numbered => exact h.numbered.insert_size f
  case bounded =>
    intro t g ht
    rcases hcases ht with ⟨-, rfl⟩ | hold
    · exact hf
    · exact Nat.lt_of_lt_of_le (h.bounded t g hold) hlength
  case made =>
    intro t ht
    rw [Keyed.contains_insert]
    rcases History.made_concat.1 ht with hold | heq
    · exact .inr (h.made t hold)
    · exact .inl (Answer.token.inj heq)
  case copied =>
    intro t u hcopied
    rcases History.copied_concat.1 hcopied with hold | ⟨heq, hnumber⟩
    · obtain ⟨g, hg⟩ := Option.isSome_iff_exists.1 (h.made u ⟨_, hold⟩)
      have ht := (h.copied t u hold).trans hg
      rw [h.numbered.get?_insert_size ht, h.numbered.get?_insert_size hg]
    · cases hnumber
      rw [h.numbered.get?_insert_size (horiginal t heq), hnew]
  case joined =>
    intro t u g ht hu
    rcases hcases ht with ⟨rfl, rfl⟩ | hold
    · rcases hcases hu with ⟨rfl, -⟩ | hold'
      · exact .refl _
      · exact .symm _ _ (hjoined u hold')
    · rcases hcases hu with ⟨rfl, rfl⟩ | hold'
      · exact hjoined t hold
      · exact (h.joined t u g hold hold').mono hsub
  case signalled =>
    intro u hu
    have hold : (.cancel u, .done) ∈ past := by
      simpa only [List.mem_append, List.mem_singleton, Prod.mk.injEq, reduceCtorEq, and_false,
        or_false] using hu
    obtain ⟨g, hg, hcancelled⟩ := h.signalled u hold
    exact ⟨g, h.numbered.get?_insert_size hg f, (hsignal g).trans hcancelled⟩
  case caused =>
    intro g hg
    obtain ⟨u, hu, hfamily⟩ := h.caused g ((hsignal g).symm.trans hg)
    exact ⟨u, hsub hu, h.numbered.get?_insert_size hfamily f⟩

/-- Creating a token keeps the families in step with the history: the token begins one of its own.
-/
lemma create (h : Families b past) :
    Families (b.create b.tokens.size) (past ++ [(.create, .token b.tokens.size)]) := by
  refine h.token rfl (Board.length_create b _) ?bound (Board.familyCancelled_create b _) nofun
    ?joined
  case bound => simp [Board.create]
  case joined =>
    intro t ht
    exact absurd (h.bounded t _ ht) (Nat.lt_irrefl _)

/-- A copy keeps the families in step with the history: it is kin to what its token is kin to. -/
lemma clone (h : Families b past) {t f : Nat} (ht : b.tokens.get? t = some f) :
    Families (b.clone t b.tokens.size) (past ++ [(.clone t, .token b.tokens.size)]) := by
  rw [Board.clone_eq ht]
  refine h.token rfl (Nat.le_refl _) (h.bounded t f ht) (fun _ => rfl) ?original ?joined
  case original =>
    rintro _ ⟨⟩
    exact ht
  case joined =>
    intro u hu
    have hcopied : History.Copied (past ++ [(.clone t, .token b.tokens.size)]) t b.tokens.size :=
      History.copied_concat.2 (.inr ⟨rfl, rfl⟩)
    exact .trans _ _ _ ((h.joined u t f hu ht).mono (List.subset_append_left _ _))
      (.rel _ _ hcopied)

/-- A cancel keeps the families in step with the history: the signals raised are those of the
cancelled kin. -/
lemma cancel (h : Families b past) {t f : Nat} (ht : b.tokens.get? t = some f) :
    Families (b.cancel t) (past ++ [(.cancel t, .done)]) := by
  have hsub : past ⊆ past ++ [(.cancel t, .done)] := List.subset_append_left _ _
  have hsignal := Board.familyCancelled_cancel ht (h.bounded t f ht)
  have htokens : (b.cancel t).tokens = b.tokens := by rw [Board.cancel_eq ht]
  refine ⟨?numbered, ?bounded, ?made, ?copied, ?joined, ?signalled, ?caused⟩
  all_goals rw [htokens]
  case numbered => exact h.numbered
  case bounded =>
    intro u g hu
    rw [Board.cancel_eq ht, List.length_set]
    exact h.bounded u g hu
  case made => exact fun u hu => h.made u ((History.made_concat.1 hu).resolve_right nofun)
  case copied =>
    exact fun u v hcopied =>
      h.copied u v ((History.copied_concat.1 hcopied).resolve_right nofun)
  case joined => exact fun u v g hu hv => (h.joined u v g hu hv).mono hsub
  case signalled =>
    intro u hu
    rcases List.mem_append.1 hu with hold | hnew
    · obtain ⟨g, hg, hcancelled⟩ := h.signalled u hold
      exact ⟨g, hg, (hsignal g).2 (.inr hcancelled)⟩
    · cases List.mem_singleton.1 hnew
      exact ⟨f, ht, (hsignal f).2 (.inl rfl)⟩
  case caused =>
    intro g hg
    rcases (hsignal g).1 hg with rfl | hold
    · exact ⟨t, List.mem_append_right _ (List.mem_singleton_self _), ht⟩
    · obtain ⟨u, hu, hfamily⟩ := h.caused g hold
      exact ⟨u, hsub hu, hfamily⟩

end Families

end Watch

end Saga
