import Mathlib.Data.List.Induction
import Saga.Json.Bytes
import Saga.Proofs.Json.Cut

/-!
# Files that are cut off

A part of the bytes of a text is the bytes of a part of it, or it ends inside a character of several
bytes, none of which is a character by itself (`eq_or_high_of_prefix`). In the second case the bytes
are no text, and what they spell ends with something else than a bracket (`spell_concat`). Either
way a part of a file that holds a list or a record holds no value (`ofBytes?_cut`).
-/

namespace Saga

namespace Utf8

/-! ## Characters -/

/-- A text is encoded character by character. -/
lemma encode_ofList (cs : List Char) :
    encode (String.ofList cs) = cs.flatMap String.utf8EncodeChar := by
  rw [encode, String.toUTF8_eq_toByteArray, String.toByteArray_ofList, List.utf8Encode.eq_1,
    List.toList_data_toByteArray]

/-- A character below 128 is one byte. -/
lemma encodeChar_of_low {c : Char} (hc : c.toNat < 128) :
    String.utf8EncodeChar c = [UInt8.ofNat c.toNat] := by
  rw [String.utf8EncodeChar.eq_def]
  exact if_pos (Nat.le_of_lt_succ hc)

/-- All bytes of another character are 128 or more. -/
lemma le_of_mem_encodeChar {c : Char} (hc : 128 ≤ c.toNat) {b : UInt8}
    (hb : b ∈ String.utf8EncodeChar c) : 128 ≤ b.toNat := by
  have hnot : ¬ c.val.toNat ≤ 127 := Nat.not_le.2 hc
  have hbyte : ∀ n, 128 ≤ n → n < 256 → 128 ≤ (UInt8.ofNat n).toNat := by
    intro n hlow hhigh
    rwa [UInt8.toNat_ofNat_of_lt' hhigh]
  rw [String.utf8EncodeChar.eq_def] at hb
  simp only [if_neg hnot] at hb
  split at hb
  · simp only [List.mem_cons, List.not_mem_nil, or_false] at hb
    rcases hb with rfl | rfl <;> exact hbyte _ (by omega) (by omega)
  · split at hb
    · simp only [List.mem_cons, List.not_mem_nil, or_false] at hb
      rcases hb with rfl | rfl | rfl <;> exact hbyte _ (by omega) (by omega)
    · simp only [List.mem_cons, List.not_mem_nil, or_false] at hb
      rcases hb with rfl | rfl | rfl | rfl <;> exact hbyte _ (by omega) (by omega)

/-- Bytes that are read as a text are those of the text. -/
lemma encode_eq_of_decode? {bytes : List UInt8} {text : String} (h : decode? bytes = some text) :
    encode text = bytes := by
  unfold decode? String.fromUTF8? at h
  split at h
  · cases h
    rfl
  · cases h

/-- A part of the bytes of a text ends where a character does, or with a byte of 128 or more. -/
lemma eq_or_high_of_prefix {cs : List Char} {bytes : List UInt8}
    (h : bytes <+: cs.flatMap String.utf8EncodeChar) :
    (∃ s, s <+: cs ∧ bytes = s.flatMap String.utf8EncodeChar) ∨
      ∃ front b, bytes = front ++ [b] ∧ 128 ≤ b.toNat := by
  induction cs generalizing bytes with
  | nil => exact .inl ⟨[], List.prefix_rfl, List.prefix_nil.1 h⟩
  | cons c cs ih =>
    rw [List.flatMap_cons] at h
    rcases Nat.le_total (String.utf8EncodeChar c).length bytes.length with hlong | hshort
    · obtain ⟨more, rfl⟩ :=
        List.prefix_of_prefix_length_le (List.prefix_append _ _) h hlong
      rcases ih ((List.prefix_append_right_inj _).1 h) with ⟨s, hs, rfl⟩ | ⟨front, b, rfl, hb⟩
      · exact .inl ⟨c :: s, List.cons_prefix_cons.2 ⟨rfl, hs⟩, List.flatMap_cons.symm⟩
      · exact .inr ⟨String.utf8EncodeChar c ++ front, b, (List.append_assoc _ _ _).symm, hb⟩
    · -- The part ends within the bytes of the first character.
      have hpart : bytes <+: String.utf8EncodeChar c :=
        List.prefix_of_prefix_length_le h (List.prefix_append _ _) hshort
      cases bytes using List.reverseRecOn with
      | nil => exact .inl ⟨[], List.nil_prefix, rfl⟩
      | append_singleton front b =>
        rcases Nat.lt_or_ge c.toNat 128 with hlow | hhigh
        · rw [encodeChar_of_low hlow] at hpart
          have hwhole : front ++ [b] = [UInt8.ofNat c.toNat] :=
            hpart.eq_of_length_le (by simp)
          refine .inl ⟨[c], List.cons_prefix_cons.2 ⟨rfl, List.nil_prefix⟩, ?_⟩
          rw [List.flatMap_singleton, encodeChar_of_low hlow, hwhole]
        · exact .inr ⟨front, b, rfl, le_of_mem_encodeChar hhigh (hpart.subset List.mem_concat_self)⟩

/-- Texts whose bytes go on from those of others go on from these. -/
lemma prefix_of_flatMap {s cs : List Char}
    (h : s.flatMap String.utf8EncodeChar <+: cs.flatMap String.utf8EncodeChar) : s <+: cs := by
  obtain ⟨more, hmore⟩ := h
  apply List.isPrefix_of_utf8Encode_append_eq_utf8Encode more.toByteArray
  rw [List.utf8Encode.eq_1, List.utf8Encode.eq_1, ← List.toByteArray_append, hmore]

/-! ## First characters -/

/-- A character below 128 is read from its byte, whatever follows. -/
lemma first?_of_low {c : Char} (hc : c.toNat < 128) (bytes : List UInt8) :
    first? (UInt8.ofNat c.toNat :: bytes) = some (c, 1) := by
  have hone : decode? [UInt8.ofNat c.toNat] = some (String.ofList [c]) := by
    rw [← decode?_encode, encode_ofList, List.flatMap_singleton, encodeChar_of_low hc]
  unfold first?
  rw [List.findSome?_cons, List.take_succ_cons, List.take_zero, hone]
  simp

/-- A character takes at least one byte. -/
lemma pos_of_first? {bytes : List UInt8} {c : Char} {n : Nat} (h : first? bytes = some (c, n)) :
    0 < n := by
  obtain ⟨k, hmem, hk⟩ := List.exists_of_findSome?_eq_some h
  obtain ⟨text, -, hk⟩ := Option.bind_eq_some_iff.1 hk
  obtain ⟨c', -, hk⟩ := Option.bind_eq_some_iff.1 hk
  cases hk
  exact (by decide : ∀ k ∈ [1, 2, 3, 4], 0 < k) n hmem

/-- A first character below 128 is the first byte. -/
lemma eq_of_first? {bytes : List UInt8} {c : Char} {n : Nat} (h : first? bytes = some (c, n))
    (hc : c.toNat < 128) : n = 1 ∧ ∃ more, bytes = UInt8.ofNat c.toNat :: more := by
  obtain ⟨k, -, hk⟩ := List.exists_of_findSome?_eq_some h
  obtain ⟨text, hdecode, hk⟩ := Option.bind_eq_some_iff.1 hk
  obtain ⟨c', hhead, hk⟩ := Option.bind_eq_some_iff.1 hk
  cases hk
  obtain ⟨cs, hcs⟩ := List.head?_eq_some_iff.1 hhead
  have hbytes : bytes = UInt8.ofNat c.toNat ::
      (cs.flatMap String.utf8EncodeChar ++ bytes.drop n) := by
    have htake := encode_eq_of_decode? hdecode
    rw [← String.ofList_toList (s := text), hcs, encode_ofList, List.flatMap_cons,
      encodeChar_of_low hc] at htake
    rw [← List.singleton_append, ← List.append_assoc, htake, List.take_append_drop]
  refine ⟨?_, _, hbytes⟩
  rw [hbytes, first?_of_low hc] at h
  cases h
  rfl

end Utf8

namespace Json

/-- Whether a character is none of those that may end a value: the last of `noText`, what stands for
a byte after a backslash, or one of several bytes. -/
def Dangles (c : Char) : Prop := c = '0' ∨ c = '\x00' ∨ 128 ≤ c.toNat

instance (c : Char) : Decidable (Dangles c) := inferInstanceAs (Decidable (_ ∨ _ ∨ _))

/-- Whether a text ends with such a character. -/
def Dangling (cs : List Char) : Prop := ∃ front c, cs = front ++ [c] ∧ Dangles c

/-- What stands in front of a text does not change how it ends. -/
lemma Dangling.append {cs : List Char} (h : Dangling cs) (front : List Char) :
    Dangling (front ++ cs) := by
  obtain ⟨front', c, rfl, hc⟩ := h
  exact ⟨front ++ front', c, (List.append_assoc _ _ _).symm, hc⟩

section Spelling

variable {fuel n : Nat} {bytes : List UInt8} {b : UInt8} {c : Char}

/-- What is left of a list ends as the list does. -/
lemma getLast?_of_drop_ne_nil (hlast : bytes.getLast? = some b) (hne : bytes.drop n ≠ []) :
    (bytes.drop n).getLast? = some b := by
  rw [List.getLast?_drop, if_neg, hlast]
  rwa [Ne, List.drop_eq_nil_iff] at hne

/-- What is left behind some first bytes ends with the same byte, unless nothing is left. -/
lemma drop_of_pos (hlast : bytes.getLast? = some b) (hfuel : bytes.length ≤ fuel + 1) (hn : 0 < n)
    (hne : bytes.drop n ≠ []) :
    (bytes.drop n).getLast? = some b ∧ (bytes.drop n).length ≤ fuel := by
  refine ⟨getLast?_of_drop_ne_nil hlast hne, ?_⟩
  rw [List.length_drop]
  omega

/-- No bytes spell nothing. -/
lemma spell_nil (fuel : Nat) : spell fuel [] = [] := by
  cases fuel <;> rfl

/-- The last character of bytes that do not end with one below 128. -/
lemma dangles_of_first? (h : Utf8.first? bytes = some (c, n)) (hlast : bytes.getLast? = some b)
    (hb : 128 ≤ b.toNat) (hdrop : bytes.drop n = []) : Dangles c := by
  refine .inr (.inr (Nat.not_lt.1 fun hlow => ?_))
  obtain ⟨rfl, more, rfl⟩ := Utf8.eq_of_first? h hlow
  rw [List.drop_succ_cons, List.drop_zero] at hdrop
  subst hdrop
  obtain rfl : UInt8.ofNat c.toNat = b := Option.some.inj hlast
  rw [UInt8.toNat_ofNat_of_lt' (by show _ < 256; omega)] at hb
  omega

/-- What is spelled by bytes that do not end with a character below 128. -/
lemma spell_dangling (hlast : bytes.getLast? = some b) (hb : 128 ≤ b.toNat)
    (hfuel : bytes.length ≤ fuel) : Dangling (spell fuel bytes) := by
  fun_induction spell fuel bytes with
  | case1 bytes =>
    rw [List.eq_nil_of_length_eq_zero (Nat.le_zero.1 hfuel)] at hlast
    cases hlast
  | case2 fuel => cases hlast
  | case3 fuel bytes hne hnone ih =>
    by_cases hnil : bytes.drop 1 = []
    · rw [hnil, spell_nil, List.append_nil]
      exact ⟨noText.dropLast, '0', by decide, .inl rfl⟩
    · obtain ⟨hlast', hfuel'⟩ := drop_of_pos hlast hfuel Nat.one_pos hnil
      exact (ih hlast' hfuel').append noText
  | case4 fuel bytes hne n hfirst hnone ih =>
    by_cases hnil : bytes.drop n = []
    · rw [hnil, spell_nil]
      exact ⟨['\\'], '\x00', rfl, .inr (.inl rfl)⟩
    · obtain ⟨hlast', hfuel'⟩ := drop_of_pos hlast hfuel (Utf8.pos_of_first? hfirst) hnil
      exact (ih hlast' hfuel').append ['\\', '\x00']
  | case5 fuel bytes hne n hfirst c m hnext ih =>
    have hn := Utf8.pos_of_first? hfirst
    by_cases hnil : bytes.drop (n + m) = []
    · rw [hnil, spell_nil]
      have hne' : bytes.drop n ≠ [] := by
        intro hnil'
        rw [hnil'] at hnext
        cases hnext
      have hlast' := getLast?_of_drop_ne_nil hlast hne'
      rw [← List.drop_drop] at hnil
      exact ⟨['\\'], c, rfl, dangles_of_first? hnext hlast' hb hnil⟩
    · obtain ⟨hlast', hfuel'⟩ := drop_of_pos hlast hfuel (Nat.add_pos_left hn m) hnil
      exact (ih hlast' hfuel').append ['\\', c]
  | case6 fuel bytes hne c n hnot hfirst ih =>
    by_cases hnil : bytes.drop n = []
    · rw [hnil, spell_nil]
      exact ⟨[], c, rfl, dangles_of_first? hfirst hlast hb hnil⟩
    · obtain ⟨hlast', hfuel'⟩ := drop_of_pos hlast hfuel (Utf8.pos_of_first? hfirst) hnil
      exact (ih hlast' hfuel').append [c]

/-- An opening bracket is spelled by its one byte. -/
lemma spell_cons (hc : c = '[' ∨ c = '\x7b') (fuel : Nat) (bytes : List UInt8) :
    spell (fuel + 1) (UInt8.ofNat c.toNat :: bytes) = c :: spell fuel bytes := by
  have hlow : c.toNat < 128 := by rcases hc with rfl | rfl <;> decide
  simp only [spell, Utf8.first?_of_low hlow]
  rcases hc with rfl | rfl <;> rfl

/-- Bytes that begin like those of a list or a record spell a text that does. -/
lemma opens_spell {cs : List Char} (hopens : Opens cs)
    (hpart : bytes <+: cs.flatMap String.utf8EncodeChar) (hne : bytes ≠ []) :
    Opens (spell bytes.length bytes) := by
  obtain ⟨c, body, rfl, hc⟩ := hopens
  rw [List.flatMap_cons, Utf8.encodeChar_of_low (by rcases hc with rfl | rfl <;> decide)] at hpart
  cases bytes with
  | nil => exact absurd rfl hne
  | cons b bytes =>
    obtain ⟨rfl, -⟩ := List.cons_prefix_cons.1 hpart
    exact ⟨c, _, spell_cons hc _ _, hc⟩

/-- A character that dangles is no blank. -/
lemma Dangles.isSpace (hc : Dangles c) : isSpace c = false := by
  rcases hc with rfl | rfl | hhigh
  · rfl
  · rfl
  · simp only [Json.isSpace, Bool.or_eq_false_iff, beq_eq_false_iff_ne]
    refine ⟨⟨⟨?_, ?_⟩, ?_⟩, ?_⟩
    all_goals
      rintro rfl
      exact absurd hhigh (by decide)

/-- A character that dangles closes nothing. -/
lemma Dangles.ne_closing (hc : Dangles c) : c ≠ ']' ∧ c ≠ '\x7d' := by
  constructor
  all_goals
    rintro rfl
    exact absurd hc (by decide)

end Spelling

/-- No part of a file that holds a list or a record holds a value, apart from the whole. -/
theorem ofBytes?_cut {v : Json} {cs : List Char} {bytes : List UInt8} (hopens : Opens cs)
    (hspells : Spells v cs) (hpart : bytes <+: Utf8.encode (String.ofList cs))
    (hne : bytes ≠ Utf8.encode (String.ofList cs)) : ofBytes? bytes = none := by
  rw [Utf8.encode_ofList] at hpart hne
  cases hdecode : Utf8.decode? bytes with
  | some text =>
    -- The part ends where a character does, so it is the text of a part.
    obtain rfl := Utf8.encode_eq_of_decode? hdecode
    rw [← String.ofList_toList (s := text), Utf8.encode_ofList] at hpart hne
    obtain ⟨q, rfl⟩ := Utf8.prefix_of_flatMap hpart
    have hq : q ≠ [] := by
      rintro rfl
      exact hne (by rw [List.append_nil])
    unfold ofBytes?
    rw [Utf8.decode?_encode]
    cases hcs : text.toList with
    | nil =>
      rw [String.toList_eq_nil_iff.1 hcs]
      rfl
    | cons c s =>
      rw [hcs] at hopens hspells
      have hs : Opens (c :: s) := by
        obtain ⟨_, _, heq, hc⟩ := hopens
        cases heq
        exact ⟨c, s, rfl, hc⟩
      have hcut := parse?_cut hs hspells hq
      rwa [← hcs, String.ofList_toList] at hcut
  | none =>
    -- The part ends in the middle of a character, which is spelled as something that ends no value.
    rcases Utf8.eq_or_high_of_prefix hpart with ⟨s, -, rfl⟩ | ⟨front, b, rfl, hb⟩
    · rw [← Utf8.encode_ofList, Utf8.decode?_encode] at hdecode
      cases hdecode
    · unfold ofBytes?
      rw [hdecode]
      have hopens' := opens_spell hopens hpart (by simp)
      obtain ⟨text, c, htext, hc⟩ := spell_dangling List.getLast?_concat hb (Nat.le_refl _)
      rw [htext] at hopens'
      simp only [htext]
      exact parse?_concat hopens' hc.isSpace hc.ne_closing

end Json

end Saga
