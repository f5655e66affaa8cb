import Mathlib.Algebra.Group.Nat.Defs
import Mathlib.Data.List.Basic
import Mathlib.Tactic.Lemma
import Saga.Checksum

/-!
# Bursts

The register goes through bits and bytes linearly in exclusive or (`takeByte_xor`), and one that
ends up with free places at its top has only been moved down (`toNat_of_shiftBits_lt`). So four
bytes or fewer that are not all zero do not leave the register empty (`eq_zero_of_takeBytes`), and
what follows keeps different registers apart. Texts that differ in a window of four bytes and
nowhere else have different checksums (`crc32c_ne_of_burst`), and these are written differently
(`hex_injective`).
-/

namespace Saga.Checksum

/-! ## One bit -/

/-- The last bit of a register tells whether it is odd. -/
lemma and_one (r : UInt32) : r &&& 1 = if r.toNat % 2 = 1 then 1 else 0 := by
  apply UInt32.toNat.inj
  rw [UInt32.toNat_and, UInt32.toNat_one, Nat.and_one_is_mod]
  split
  · next hodd => rw [hodd, UInt32.toNat_one]
  · next heven => rw [UInt32.toNat_zero, Nat.mod_two_ne_one.1 heven]

/-- A register that is odd is shifted and takes the polynomial. -/
lemma shiftBit_of_odd {r : UInt32} (h : r.toNat % 2 = 1) :
    shiftBit r = (r >>> 1) ^^^ polynomial := by
  rw [shiftBit, and_one, if_pos h, if_pos rfl]

/-- A register that is even is only shifted. -/
lemma shiftBit_of_even {r : UInt32} (h : r.toNat % 2 = 0) : shiftBit r = r >>> 1 := by
  rw [shiftBit, and_one, h]
  rfl

/-- What two registers have in common cancels out. -/
lemma xor_cancel (a b c : UInt32) : (a ^^^ c) ^^^ (b ^^^ c) = a ^^^ b := by
  rw [UInt32.xor_comm b c, UInt32.xor_assoc, ← UInt32.xor_assoc c c b, UInt32.xor_self,
    UInt32.zero_xor]

/-- Shifting out a bit is linear. -/
lemma shiftBit_xor (a b : UInt32) : shiftBit (a ^^^ b) = shiftBit a ^^^ shiftBit b := by
  have hlow : (a ^^^ b).toNat % 2 = a.toNat % 2 ^^^ b.toNat % 2 := by
    rw [UInt32.toNat_xor]
    exact Nat.xor_mod_two_pow (n := 1)
  rcases Nat.mod_two_eq_zero_or_one a.toNat with ha | ha <;>
    rcases Nat.mod_two_eq_zero_or_one b.toNat with hb | hb <;>
    rw [ha, hb] at hlow
  · rw [shiftBit_of_even ha, shiftBit_of_even hb, shiftBit_of_even hlow, UInt32.shiftRight_xor]
  · rw [shiftBit_of_even ha, shiftBit_of_odd hb, shiftBit_of_odd hlow, UInt32.shiftRight_xor,
      UInt32.xor_assoc]
  · rw [shiftBit_of_odd ha, shiftBit_of_even hb, shiftBit_of_odd hlow, UInt32.shiftRight_xor,
      UInt32.xor_assoc, UInt32.xor_assoc, UInt32.xor_comm polynomial]
  · rw [shiftBit_of_odd ha, shiftBit_of_odd hb, shiftBit_of_even hlow, UInt32.shiftRight_xor,
      xor_cancel]

/-- A shift by one bit halves the register. -/
lemma toNat_shiftRight_one (r : UInt32) : (r >>> 1).toNat = r.toNat / 2 := by
  rw [UInt32.toNat_shiftRight]
  exact Nat.shiftRight_eq_div_pow _ _

/-- The polynomial fills the top place, so a register whose top place is free was only moved down.
-/
lemma toNat_of_shiftBit_lt {r : UInt32} (h : (shiftBit r).toNat < 2 ^ 31) :
    r.toNat = 2 * (shiftBit r).toNat := by
  rcases Nat.mod_two_eq_zero_or_one r.toNat with heven | hodd
  · rw [shiftBit_of_even heven, toNat_shiftRight_one]
    omega
  · exfalso
    rw [shiftBit_of_odd hodd, UInt32.toNat_xor, toNat_shiftRight_one] at h
    have hhalf : r.toNat / 2 < 2 ^ 31 := by
      have hlt := r.toNat_lt
      omega
    have hpolynomial := Nat.xor_lt_two_pow hhalf h
    rw [← Nat.xor_assoc, Nat.xor_self, Nat.zero_xor] at hpolynomial
    exact absurd hpolynomial (by decide)

/-! ## Bits and bytes -/

/-- Shifting out any number of bits is linear. -/
lemma shiftBits_xor (n : Nat) (a b : UInt32) :
    shiftBits n (a ^^^ b) = shiftBits n a ^^^ shiftBits n b := by
  induction n generalizing a b with
  | zero => rfl
  | succ n ih => rw [shiftBits, shiftBit_xor, ih, shiftBits, shiftBits]

/-- A register whose top places are free after as many bits was only moved down. -/
lemma toNat_of_shiftBits_lt {n : Nat} (hn : n ≤ 32) {r : UInt32}
    (h : (shiftBits n r).toNat < 2 ^ (32 - n)) : r.toNat = 2 ^ n * (shiftBits n r).toNat := by
  induction n generalizing r with
  | zero => simp [shiftBits]
  | succ n ih =>
    rw [shiftBits] at h ⊢
    have hpow : 2 ^ (32 - n) = 2 * 2 ^ (32 - (n + 1)) := by
      rw [← Nat.pow_succ']
      congr 1
      omega
    -- The later bits only moved the register down, so the first one left its top place free.
    have hrest := ih (by omega) (r := shiftBit r) (by omega)
    have hbit : (shiftBit r).toNat < 2 ^ 31 := by
      calc (shiftBit r).toNat
        _ = 2 ^ n * (shiftBits n (shiftBit r)).toNat := hrest
        _ < 2 ^ n * 2 ^ (32 - (n + 1)) := Nat.mul_lt_mul_of_pos_left h (Nat.two_pow_pos n)
        _ = 2 ^ 31 := by rw [← Nat.pow_add]; congr 1; omega
    rw [toNat_of_shiftBit_lt hbit, hrest, Nat.pow_succ', Nat.mul_assoc]

/-- Taking in a byte is linear in the register and the byte together. -/
lemma takeByte_xor (a b : UInt32) (x y : UInt8) :
    takeByte (a ^^^ b) (x ^^^ y) = takeByte a x ^^^ takeByte b y := by
  unfold takeByte
  rw [← shiftBits_xor, UInt8.toUInt32_xor]
  congr 1
  ac_rfl

/-- The register after some bytes. -/
def takeBytes (register : UInt32) (bytes : List UInt8) : UInt32 := bytes.foldl takeByte register

/-- Bytes are taken in one part after the other. -/
lemma takeBytes_append (r : UInt32) (xs ys : List UInt8) :
    takeBytes r (xs ++ ys) = takeBytes (takeBytes r xs) ys := List.foldl_append

/-- Taking in bytes is linear in the register and the bytes together. -/
lemma takeBytes_xor (a b : UInt32) {xs ys : List UInt8} (h : xs.length = ys.length) :
    takeBytes (a ^^^ b) (List.zipWith (· ^^^ ·) xs ys) = takeBytes a xs ^^^ takeBytes b ys := by
  induction xs generalizing a b ys with
  | nil =>
    cases ys with
    | nil => rfl
    | cons y ys => cases h
  | cons x xs ih =>
    cases ys with
    | nil => cases h
    | cons y ys =>
      show takeBytes (takeByte (a ^^^ b) (x ^^^ y)) _ = _
      rw [takeByte_xor, ih _ _ (Nat.succ.inj h)]
      rfl

/-- A byte that leaves the top byte of the register free was put at its end. -/
lemma toNat_of_takeByte_lt {r : UInt32} {x : UInt8} (h : (takeByte r x).toNat < 2 ^ 24) :
    (r ^^^ x.toUInt32).toNat = 2 ^ 8 * (takeByte r x).toNat :=
  toNat_of_shiftBits_lt (by decide) h

/-- A byte that is taken in by two registers leaves them apart if they were. -/
lemma takeByte_injective (x : UInt8) {a b : UInt32} (h : takeByte a x = takeByte b x) : a = b := by
  have hzero : takeByte (a ^^^ b) (x ^^^ x) = 0 := by
    rw [takeByte_xor, h, UInt32.xor_self]
  have hdown := toNat_of_takeByte_lt (r := a ^^^ b) (x := x ^^^ x) (by rw [hzero]; decide)
  rw [hzero, UInt8.xor_self] at hdown
  exact UInt32.xor_eq_zero_iff.1 (UInt32.toNat.inj (by simpa using hdown))

/-- What follows keeps two registers apart. -/
lemma takeBytes_injective {xs : List UInt8} {a b : UInt32} (h : takeBytes a xs = takeBytes b xs) :
    a = b := by
  induction xs generalizing a b with
  | nil => exact h
  | cons x xs ih => exact takeByte_injective x (ih h)

/-! ## Four bytes -/

/-- A register that four bytes or fewer empty has nothing above them. -/
lemma toNat_lt_of_takeBytes {xs : List UInt8} (hlength : xs.length ≤ 4) {r : UInt32}
    (h : takeBytes r xs = 0) : r.toNat < 2 ^ (8 * xs.length) := by
  induction xs generalizing r with
  | nil =>
    rw [show r = 0 from h]
    decide
  | cons x xs ih =>
    rw [List.length_cons] at hlength ⊢
    have hnext : (takeByte r x).toNat < 2 ^ (8 * xs.length) := ih (by omega) h
    have hfree : (takeByte r x).toNat < 2 ^ 24 :=
      Nat.lt_of_lt_of_le hnext (Nat.pow_le_pow_right (by decide) (by omega))
    have hboth : (r ^^^ x.toUInt32).toNat < 2 ^ (8 * (xs.length + 1)) := by
      rw [toNat_of_takeByte_lt hfree, Nat.mul_add, Nat.add_comm, Nat.pow_add]
      exact Nat.mul_lt_mul_of_pos_left hnext (by decide)
    have hbyte : x.toUInt32.toNat < 2 ^ (8 * (xs.length + 1)) := by
      rw [UInt8.toNat_toUInt32]
      exact Nat.lt_of_lt_of_le x.toNat_lt (Nat.pow_le_pow_right (by decide) (by omega))
    have hr : r.toNat = (r ^^^ x.toUInt32).toNat ^^^ x.toUInt32.toNat := by
      rw [UInt32.toNat_xor, Nat.xor_assoc, Nat.xor_self, Nat.xor_zero]
    rw [hr]
    exact Nat.xor_lt_two_pow hboth hbyte

/-- Four bytes or fewer that leave an empty register empty are all zero. -/
lemma eq_zero_of_takeBytes {xs : List UInt8} (hlength : xs.length ≤ 4) (h : takeBytes 0 xs = 0) :
    ∀ x ∈ xs, x = 0 := by
  induction xs with
  | nil => exact nofun
  | cons x xs ih =>
    rw [List.length_cons] at hlength
    have hnext : (takeByte 0 x).toNat < 2 ^ (8 * xs.length) := toNat_lt_of_takeBytes (by omega) h
    have hdown := toNat_of_takeByte_lt (r := 0) (x := x)
      (Nat.lt_of_lt_of_le hnext (Nat.pow_le_pow_right (by decide) (by omega)))
    rw [UInt32.zero_xor, UInt8.toNat_toUInt32] at hdown
    have hlt := x.toNat_lt
    have hx : x = 0 := UInt8.toNat.inj (by rw [UInt8.toNat_zero]; omega)
    have hempty : takeByte 0 x = 0 := UInt32.toNat.inj (by rw [UInt32.toNat_zero]; omega)
    have hrest : takeBytes (takeByte 0 x) xs = 0 := h
    rw [hempty] at hrest
    exact List.forall_mem_cons.2 ⟨hx, ih (by omega) hrest⟩

/-- Two lists of bytes without a difference are equal. -/
lemma eq_of_zipWith_xor {xs ys : List UInt8} (hlength : xs.length = ys.length)
    (h : ∀ x ∈ List.zipWith (· ^^^ ·) xs ys, x = 0) : xs = ys := by
  induction xs generalizing ys with
  | nil =>
    cases ys with
    | nil => rfl
    | cons y ys => cases hlength
  | cons x xs ih =>
    cases ys with
    | nil => cases hlength
    | cons y ys =>
      obtain ⟨hhead, htail⟩ := List.forall_mem_cons.1 h
      rw [UInt8.xor_eq_zero_iff.1 hhead, ih (Nat.succ.inj hlength) htail]

/-- Texts that differ in a window of four bytes, and nowhere else, have different checksums. -/
theorem crc32c_ne_of_burst (front back : List UInt8) {xs ys : List UInt8} (hne : xs ≠ ys)
    (hlength : xs.length = ys.length) (hwindow : xs.length ≤ 4) :
    crc32c (front ++ (xs ++ back)) ≠ crc32c (front ++ (ys ++ back)) := by
  intro heq
  -- One register comes to the windows, and what follows keeps apart what they make of it.
  have hregisters : takeBytes (takeBytes 0xffffffff front) xs =
      takeBytes (takeBytes 0xffffffff front) ys := by
    have hlast : takeBytes 0xffffffff (front ++ (xs ++ back)) =
        takeBytes 0xffffffff (front ++ (ys ++ back)) := (UInt32.xor_left_inj _).1 heq
    simp only [takeBytes_append] at hlast
    exact takeBytes_injective hlast
  have hburst := takeBytes_xor (takeBytes 0xffffffff front) (takeBytes 0xffffffff front) hlength
  rw [hregisters, UInt32.xor_self, UInt32.xor_self] at hburst
  refine hne (eq_of_zipWith_xor hlength (eq_zero_of_takeBytes ?_ hburst))
  rw [List.length_zipWith, ← hlength, Nat.min_self]
  exact hwindow

/-! ## Checksums in writing -/

/-- The number that hexadecimal digits make up. -/
def digitsValue (digits : List Char) : Nat :=
  digits.foldl (fun n c => 16 * n + if c.isDigit then c.toNat - 48 else c.toNat - 87) 0

/-- The digits of a number have its value. -/
lemma digitsValue_toDigits (n : Nat) : digitsValue (Nat.toDigits 16 n) = n := by
  have hdigit : ∀ d < 16, digitsValue [Nat.digitChar d] = d := by decide
  induction n using Nat.strongRecOn with
  | ind n ih =>
    by_cases hlt : n < 16
    · rw [Nat.toDigits_of_lt_base hlt]
      exact hdigit n hlt
    · have hlast := hdigit (n % 16) (Nat.mod_lt n (by decide))
      simp only [digitsValue, List.foldl_cons, List.foldl_nil, Nat.mul_zero, Nat.zero_add] at hlast
      rw [Nat.toDigits_of_base_le (by decide) (by omega)]
      unfold digitsValue
      rw [List.foldl_append, List.foldl_cons, List.foldl_nil, hlast]
      show 16 * digitsValue (Nat.toDigits 16 (n / 16)) + n % 16 = n
      rw [ih (n / 16) (by omega)]
      omega

/-- Zeros in front of a number do not count. -/
lemma digitsValue_zeros (k : Nat) (digits : List Char) :
    digitsValue (List.replicate k '0' ++ digits) = digitsValue digits := by
  induction k with
  | zero => rfl
  | succ k ih => exact ih

/-- Different checksums are written differently. -/
theorem hex_injective {a b : UInt32} (h : hex a = hex b) : a = b := by
  have hchars := congrArg (fun text => digitsValue text.toList) h
  simp only [hex, String.toList_ofList, List.leftpad, digitsValue_zeros,
    digitsValue_toDigits] at hchars
  exact UInt32.toNat.inj hchars

end Saga.Checksum
