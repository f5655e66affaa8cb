/-!
# Texts as bytes

Files hold bytes and the engine works with texts; UTF-8 stands between the two. A text is read back
from its own bytes (`decode?_encode`).
-/

namespace Saga.Utf8

/-- The bytes of a text. -/
def encode (text : String) : List UInt8 := text.toUTF8.data.toList

/-- The text of some bytes, if they are well formed. -/
def decode? (bytes : List UInt8) : Option String := String.fromUTF8? ⟨bytes.toArray⟩

/-- The first character of some bytes and the number of bytes that it takes. -/
def first? (bytes : List UInt8) : Option (Char × Nat) :=
  [1, 2, 3, 4].findSome? fun n => do
    let text ← decode? (bytes.take n)
    return (← text.toList.head?, n)

/-- The bytes of a text are read back as that text. -/
theorem decode?_encode (text : String) : decode? (encode text) = some text := by
  have h : (⟨(encode text).toArray⟩ : ByteArray) = text.toByteArray := by simp [encode]
  rw [decode?, h, String.fromUTF8?, dif_pos text.isValidUTF8]
  rfl

end Saga.Utf8
