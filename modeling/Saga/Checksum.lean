/-!
# Checksums

CRC-32C, bit by bit: the remainder register starts with all bits set, takes in the bytes with their
low bit first, and is complemented in the end.
-/

namespace Saga.Checksum

/-- The Castagnoli polynomial, low bit first. -/
def polynomial : UInt32 := 0x82f63b78

/-- Moves the register on by one bit. -/
def shiftBit (register : UInt32) : UInt32 :=
  if register &&& 1 = 1 then (register >>> 1) ^^^ polynomial else register >>> 1

/-- Moves the register on by `n` bits. -/
def shiftBits : Nat → UInt32 → UInt32
  | 0, register => register
  | n + 1, register => shiftBits n (shiftBit register)

/-- Takes a byte into the register. -/
def takeByte (register : UInt32) (byte : UInt8) : UInt32 :=
  shiftBits 8 (register ^^^ byte.toUInt32)

/-- The checksum of some bytes. -/
def crc32c (bytes : List UInt8) : UInt32 := bytes.foldl takeByte 0xffffffff ^^^ 0xffffffff

/-- A checksum as eight lower-case hexadecimal digits. -/
def hex (checksum : UInt32) : String :=
  String.ofList (List.leftpad 8 '0' (Nat.toDigits 16 checksum.toNat))

end Saga.Checksum
