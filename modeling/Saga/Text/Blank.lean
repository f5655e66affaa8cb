/-!
# Blank text

White space is the Unicode property of that name; a text is blank when it holds nothing else.
-/

namespace Saga

/-- The characters with the Unicode property White_Space. -/
def isWhiteSpace (c : Char) : Bool :=
  let n := c.toNat
  (0x09 ≤ n && n ≤ 0x0d) || n == 0x20 || n == 0x85 || n == 0xa0 || n == 0x1680 ||
    (0x2000 ≤ n && n ≤ 0x200a) || n == 0x2028 || n == 0x2029 || n == 0x202f || n == 0x205f ||
    n == 0x3000

/-- A text without any character that is not white space. -/
def isBlank (text : String) : Bool := text.toList.all isWhiteSpace

end Saga
