import Mathlib.Algebra.Group.Int.Defs
import Mathlib.Tactic.Lemma
import Saga.Json.Printer
import Saga.Json.Reader

/-!
# Numbers and strings as they are written

A literal is read back whatever stands behind it: the digits of a number of 64 bits before anything
that does not go on as a number (`readNumber_intChars`), and a string literal before anything at all
(`ofPieces_quote`), character by character (`readPieces_escape`).
-/

namespace Saga.Json

/-! ## Numbers -/

/-- Whether no number goes on at the start of a text. -/
def Stops (rest : List Char) : Prop :=
  ∀ c ∈ rest.head?, c.isDigit = false ∧ c ≠ '.' ∧ c ≠ 'e' ∧ c ≠ 'E'

/-- Whether an integer is one of 64 bits, signed or not. -/
def IsWord (n : Int) : Prop := -2 ^ 63 ≤ n ∧ n < 2 ^ 64

/-- Digits are read up to where numbers stop. -/
lemma digits?_append {ds rest : List Char} (hne : ds ≠ []) (hds : ∀ c ∈ ds, c.isDigit = true)
    (hrest : Stops rest) : digits? (ds ++ rest) = some (ds, rest) := by
  have hstop : rest.takeWhile Char.isDigit = [] ∧ rest.dropWhile Char.isDigit = rest := by
    cases rest with
    | nil => exact ⟨rfl, rfl⟩
    | cons c cs =>
      have hc := (hrest c rfl).1
      simp [hc]
  unfold digits?
  rw [List.takeWhile_append_of_pos hds, List.dropWhile_append_of_pos hds, hstop.1, hstop.2,
    List.append_nil]
  cases ds with
  | nil => exact absurd rfl hne
  | cons d ds => rfl

/-- The digits of a number that is not zero do not begin with a zero. -/
lemma head?_toDigits_ne_zero {n : Nat} (hn : 0 < n) : (Nat.toDigits 10 n).head? ≠ some '0' := by
  have hdigit : ∀ d < 10, 0 < d → [Nat.digitChar d].head? ≠ some '0' := by decide
  induction n using Nat.strongRecOn with
  | ind n ih =>
    by_cases hlt : n < 10
    · rw [Nat.toDigits_of_lt_base hlt]
      exact hdigit n hlt hn
    · have hhead := ih (n / 10) (by omega) (by omega)
      obtain ⟨d, ds, hds⟩ :=
        List.exists_cons_of_ne_nil (Nat.toDigits_ne_nil (n := n / 10) (b := 10))
      rw [Nat.toDigits_of_base_le (by decide) (by omega), hds]
      rwa [hds] at hhead

/-- There is no fraction where numbers stop. -/
lemma fraction?_of_stops {rest : List Char} (hrest : Stops rest) :
    fraction? rest = some ([], rest) := by
  cases rest with
  | nil => rfl
  | cons c cs =>
    have hdot := (hrest c rfl).2.1
    unfold fraction?
    split
    · next heq =>
      cases heq
      exact absurd rfl hdot
    · rfl

/-- There is no exponent where numbers stop. -/
lemma exponent?_of_stops {rest : List Char} (hrest : Stops rest) :
    exponent? rest = some ([], rest) := by
  cases rest with
  | nil => rfl
  | cons c cs =>
    obtain ⟨-, -, he, hE⟩ := hrest c rfl
    simp [exponent?, he, hE]

/-- The digits of a number are read as a whole. -/
lemma readUnsigned_toDigits (negative : Bool) (n : Nat) {rest : List Char} (hrest : Stops rest) :
    readUnsigned negative (Nat.toDigits 10 n ++ rest) =
      some (ofIntegerLiteral negative (Nat.toDigits 10 n), rest) := by
  have hdigits : digits? (Nat.toDigits 10 n ++ rest) = some (Nat.toDigits 10 n, rest) :=
    digits?_append Nat.toDigits_ne_nil
      (fun c hc => Nat.isDigit_of_mem_toDigits (by decide) (by decide) hc) hrest
  have hlead : 1 < (Nat.toDigits 10 n).length → (Nat.toDigits 10 n).head? ≠ some '0' := by
    intro hlength
    apply head?_toDigits_ne_zero
    cases n with
    | zero => exact absurd hlength (by decide)
    | succ n => exact Nat.succ_pos n
  simpa [readUnsigned, hdigits, fraction?_of_stops hrest, exponent?_of_stops hrest] using hlead

/-- The digits of an integer of 64 bits, with its sign, stand for that integer. -/
lemma ofIntegerLiteral_toDigits {n : Int} (hn : IsWord n) :
    ofIntegerLiteral (decide (n < 0)) (Nat.toDigits 10 n.natAbs) = .int n := by
  obtain ⟨hmin, hmax⟩ := hn
  unfold ofIntegerLiteral
  rw [Nat.ofDigitChars_ten_toDigits]
  by_cases hneg : n < 0
  · have habs : -(n.natAbs : Int) = n := by omega
    have hpos : 0 < n.natAbs := by omega
    have hfits : Int64.minValue.toInt ≤ n := hmin
    simp only [hneg, hpos, habs, hfits, decide_true, Bool.and_self, if_true]
  · have habs : (n.natAbs : Int) = n := by omega
    have hfits : n.natAbs < UInt64.size := by
      show n.natAbs < 2 ^ 64
      omega
    simp only [hneg, habs, hfits, decide_false, Bool.false_eq_true, if_false, if_true]

/-- An integer of 64 bits is read back from its digits. -/
lemma readNumber_intChars {n : Int} (hn : IsWord n) {rest : List Char} (hrest : Stops rest) :
    readNumber (intChars n ++ rest) = some (.int n, rest) := by
  have hread := readUnsigned_toDigits (decide (n < 0)) n.natAbs hrest
  rw [ofIntegerLiteral_toDigits hn] at hread
  cases n with
  | ofNat n =>
    have hnot : ∀ r, Nat.toDigits 10 n ++ rest ≠ '-' :: r := by
      intro r heq
      obtain ⟨d, ds, hds⟩ := List.exists_cons_of_ne_nil (Nat.toDigits_ne_nil (n := n) (b := 10))
      have hd : d.isDigit = true :=
        Nat.isDigit_of_mem_toDigits (n := n) (b := 10) (by decide) (by decide) (by simp [hds])
      rw [hds] at heq
      cases heq
      cases hd
    unfold intChars readNumber
    split
    · next heq => exact absurd heq (hnot _)
    · exact hread
  | negSucc n =>
    have hneg : decide (Int.negSucc n < 0) = true := decide_eq_true (Int.negSucc_lt_zero n)
    rw [hneg] at hread
    exact hread

/-! ## Strings -/

/-- The characters with an escape of one letter. -/
def shortEscaped : List Char := ['"', '\\', '\n', '\r', '\t', Char.ofNat 8, Char.ofNat 12]

/-- The piece that stands for a character in a written string literal. -/
def pieceOf (c : Char) : Piece :=
  if c ∈ shortEscaped ∨ 32 ≤ c.toNat then .char c else .unit c.toNat

/-- A hexadecimal digit has its value. -/
lemma hexValue?_hexDigit {n : Nat} (hn : n < 16) : hexValue? (hexDigit n) = some n := by
  have h : ∀ n < 16, hexValue? (hexDigit n) = some n := by decide
  exact h n hn

/-- The number of a control character is read back from its escape. -/
lemma unit?_hexDigit {n : Nat} (hn : n < 32) :
    unit? '0' '0' (hexDigit (n / 16)) (hexDigit (n % 16)) = some n := by
  have hzero : hexValue? '0' = some 0 := rfl
  have hhigh := hexValue?_hexDigit (n := n / 16) (by omega)
  have hlow := hexValue?_hexDigit (n := n % 16) (by omega)
  have hsum : n / 16 * 16 + n % 16 = n := by omega
  simp [unit?, hzero, hhigh, hlow, hsum]

/-- A character without a short escape stands for itself, unless it is a control character. -/
lemma escape_of_not_short {c : Char} (hc : c ∉ shortEscaped) :
    escape c =
      if c.toNat < 32 then
        ['\\', 'u', '0', '0', hexDigit (c.toNat / 16), hexDigit (c.toNat % 16)]
      else [c] := by
  have hback : ∀ n, c.toNat = n → c = Char.ofNat n := by
    rintro n rfl
    rw [Char.ofNat_toNat]
  simp only [shortEscaped, List.mem_cons, List.not_mem_nil, or_false, not_or] at hc
  obtain ⟨hquote, hback', hline, hreturn, htab, hbell, hfeed⟩ := hc
  have h8 : c.toNat ≠ 8 := fun h => hbell (hback 8 h)
  have h12 : c.toNat ≠ 12 := fun h => hfeed (hback 12 h)
  simp only [escape, hquote, hback', hline, hreturn, htab, h8, h12, if_false]

/-- A written character is read back as its piece. -/
lemma readPieces_escape (c : Char) (rest : List Char) :
    readPieces (escape c ++ rest) = pushPiece (pieceOf c) (readPieces rest) := by
  by_cases hshort : c ∈ shortEscaped
  · simp only [shortEscaped, List.mem_cons, List.not_mem_nil, or_false] at hshort
    rcases hshort with rfl | rfl | rfl | rfl | rfl | rfl | rfl <;> rfl
  · rw [escape_of_not_short hshort]
    by_cases hcontrol : c.toNat < 32
    · have hpiece : pieceOf c = .unit c.toNat := by
        simp [pieceOf, hshort, hcontrol]
      simp only [hcontrol, if_true, List.cons_append, List.nil_append]
      rw [readPieces, unit?_hexDigit hcontrol, hpiece]
    · have hpiece : pieceOf c = .char c := by
        simp [pieceOf, Nat.not_lt.1 hcontrol]
      have hquote : c ≠ '"' := by
        rintro rfl
        exact hshort (by simp [shortEscaped])
      have hback : c ≠ '\\' := by
        rintro rfl
        exact hshort (by simp [shortEscaped])
      simp [hcontrol, readPieces, hback, hpiece]

/-- An escaped text is read back piece by piece up to its closing quote. -/
lemma readPieces_escapes (text rest : List Char) :
    readPieces (text.flatMap escape ++ '"' :: rest) = some (text.map pieceOf, rest) := by
  induction text with
  | nil => rfl
  | cons c text ih =>
    rw [List.flatMap_cons, List.append_assoc, readPieces_escape, ih]
    rfl

/-- A character is read back as itself, or as a unit if it is a control character. -/
lemma pieceOf_cases (c : Char) :
    pieceOf c = .char c ∨ pieceOf c = .unit c.toNat ∧ c.toNat < 32 := by
  unfold pieceOf
  split
  · exact .inl rfl
  · next h =>
    rw [not_or, Nat.not_le] at h
    exact .inr ⟨rfl, h.2⟩

/-- A unit that is no half of a surrogate pair stands for its character, whatever follows. -/
lemma joinPieces_unit {c : Char} (hc : c.toNat < 32) (rest : List Piece) :
    joinPieces (.unit c.toNat :: rest) = (joinPieces rest).map (c :: ·) := by
  have hhigh : isHighSurrogate c.toNat = false := by
    have hlt : ¬ 0xd800 ≤ c.toNat := by omega
    simp [isHighSurrogate, hlt]
  have hlow : isLowSurrogate c.toNat = false := by
    have hlt : ¬ 0xdc00 ≤ c.toNat := by omega
    simp [isLowSurrogate, hlt]
  cases rest with
  | nil => simp [joinPieces, hhigh, hlow]
  | cons p rest => cases p <;> simp [joinPieces, hhigh, hlow]

/-- The pieces of a written text make up the text. -/
lemma joinPieces_map_pieceOf (text : List Char) : joinPieces (text.map pieceOf) = some text := by
  induction text with
  | nil => rfl
  | cons c text ih =>
    rw [List.map_cons]
    rcases pieceOf_cases c with hpiece | ⟨hpiece, hlt⟩
    · rw [hpiece, joinPieces, ih]
      rfl
    · rw [hpiece, joinPieces_unit hlt, ih]
      rfl

/-- A written text is read back, and what follows its closing quote is left. -/
lemma ofPieces_quote (text : String) (rest : List Char) :
    (readPieces (text.toList.flatMap escape ++ '"' :: rest)).map (fun r => (ofPieces r.1, r.2)) =
      some (.str text, rest) := by
  rw [readPieces_escapes]
  simp [ofPieces, joinPieces_map_pieceOf]

end Saga.Json
