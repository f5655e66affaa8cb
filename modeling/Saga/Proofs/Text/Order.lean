import Saga.Proofs.Json.Bytes

/-!
# The order of texts

Texts are compared character by character. Since the bytes of a lesser character are less than those
of a greater one, whatever comes after them (`encodeChar_lt`), the order of texts is that of their
bytes (`encode_lt_iff`).
-/

namespace Saga.Utf8

/-- Lists of bytes are ordered by their first ones, and then by the rest. -/
lemma ofNat_cons_lt {a b : Nat} (ha : a < 256) (hb : b < 256) {more more' : List UInt8} :
    UInt8.ofNat a :: more < UInt8.ofNat b :: more' ↔ a < b ∨ a = b ∧ more < more' := by
  have hlt : UInt8.ofNat a < UInt8.ofNat b ↔ a < b := by
    rw [UInt8.lt_iff_toNat_lt, UInt8.toNat_ofNat_of_lt' ha, UInt8.toNat_ofNat_of_lt' hb]
  have heq : UInt8.ofNat a = UInt8.ofNat b ↔ a = b := by
    rw [← UInt8.toNat_inj, UInt8.toNat_ofNat_of_lt' ha, UInt8.toNat_ofNat_of_lt' hb]
  rw [List.cons_lt_cons_iff, hlt, heq]

/-- A character is below the end of Unicode. -/
lemma toNat_val_lt (c : Char) : c.val.toNat < 0x110000 := by
  rcases c.valid with hlow | ⟨-, hhigh⟩
  · exact Nat.lt_trans hlow (by decide)
  · exact hhigh

/-- The bytes of a lesser character come first, whatever follows. -/
lemma encodeChar_lt {c d : Char} (h : c < d) (more more' : List UInt8) :
    String.utf8EncodeChar c ++ more < String.utf8EncodeChar d ++ more' := by
  have hlt : c.val.toNat < d.val.toNat := h
  have hc := toNat_val_lt c
  have hd := toNat_val_lt d
  rw [String.utf8EncodeChar.eq_def, String.utf8EncodeChar.eq_def]
  generalize c.val.toNat = v at *
  generalize d.val.toNat = w at *
  have hdigits : ∀ n < 0x110000, n / 64 / 64 = n / 4096 ∧ n / 4096 / 64 = n / 262144 ∧
      n / 262144 % 8 = n / 262144 := by omega
  obtain ⟨hv₁, hv₂, hv₃⟩ := hdigits v hc
  obtain ⟨hw₁, hw₂, hw₃⟩ := hdigits w hd
  -- The first bytes tell characters of different lengths apart, else the digits in base 64 do.
  simp only
  split_ifs
  all_goals
    simp (disch := omega) only [List.cons_append, List.nil_append, ofNat_cons_lt]
    omega

/-- The bytes of texts are ordered as the texts are. -/
lemma flatMap_encodeChar_lt {cs ds : List Char} (h : cs < ds) :
    cs.flatMap String.utf8EncodeChar < ds.flatMap String.utf8EncodeChar := by
  induction cs generalizing ds with
  | nil =>
    cases ds with
    | nil => exact absurd h (List.not_lt_nil [])
    | cons d ds =>
      obtain ⟨b, more, hd⟩ := List.exists_cons_of_ne_nil (String.utf8EncodeChar_ne_nil (c := d))
      rw [List.flatMap_cons, hd]
      exact List.nil_lt_cons b _
  | cons c cs ih =>
    cases ds with
    | nil => exact absurd h (List.not_lt_nil _)
    | cons d ds =>
      rw [List.flatMap_cons, List.flatMap_cons]
      rcases List.cons_lt_cons_iff.1 h with hlt | ⟨rfl, hlt⟩
      · exact encodeChar_lt hlt _ _
      · exact List.append_left_lt (ih hlt)

/-- A text comes before another if its bytes do. -/
theorem encode_lt_iff {s t : String} : encode s < encode t ↔ s < t := by
  have hmono : ∀ {s t : String}, s < t → encode s < encode t := by
    intro s t h
    rw [← String.ofList_toList (s := s), ← String.ofList_toList (s := t), encode_ofList,
      encode_ofList]
    exact flatMap_encodeChar_lt h
  refine ⟨fun h => ?_, hmono⟩
  by_contra hnot
  by_cases hlt : t < s
  · exact List.lt_asymm h (hmono hlt)
  · obtain rfl := String.le_antisymm (String.not_lt.1 hlt) (String.not_lt.1 hnot)
    exact List.lt_irrefl _ h

end Saga.Utf8
