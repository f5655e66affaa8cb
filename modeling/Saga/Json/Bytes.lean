import Saga.Json.Reader
import Saga.Text.Utf8

/-!
# Reading JSON from bytes

A file may hold bytes that are no text. Inside a string literal they are like half of a surrogate
pair: whoever asks for the text of the literal gets none, and whoever passes over it never sees
them. Everywhere else they are no JSON.
-/

namespace Saga.Json

/-- What stands for a byte that is part of no character: an escape that has no text, whatever stands
around it. -/
def noText : List Char := "\\ud800\\ud800".toList

/-- The characters that some bytes spell, with `noText` for each byte that is part of none. After a
backslash such a byte makes an escape that there is not. -/
def spell : (fuel : Nat) → (bytes : List UInt8) → List Char
  | 0, _ => []
  | _ + 1, [] => []
  | fuel + 1, bytes =>
    match Utf8.first? bytes with
    | none => noText ++ spell fuel (bytes.drop 1)
    | some ('\\', n) =>
      match Utf8.first? (bytes.drop n) with
      | none => '\\' :: '\x00' :: spell fuel (bytes.drop n)
      | some (c, m) => '\\' :: c :: spell fuel (bytes.drop (n + m))
    | some (c, n) => c :: spell fuel (bytes.drop n)

/-- The one value that some bytes hold. -/
def ofBytes? (bytes : List UInt8) : Option Json :=
  match Utf8.decode? bytes with
  | some text => parse? text
  | none => parse? (String.ofList (spell bytes.length bytes))

end Saga.Json
