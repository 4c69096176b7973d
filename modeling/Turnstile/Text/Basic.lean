/-!
# Blanks, letter case and digits

Texts are compared up to the blanks around them, up to the case of the letters A to Z, or by the
number that they write. A character is blank if it has the Unicode property White_Space; letter
case and digits are those of ASCII, and every other character stands for itself.
-/

namespace Turnstile.Text

/-! ## Blank space -/

/-- The characters with the property White_Space. -/
def isBlank (c : Char) : Bool :=
  let n := c.toNat
  (9 ≤ n && n ≤ 13) || n == 0x20 || n == 0x85 || n == 0xA0 || n == 0x1680
    || (0x2000 ≤ n && n ≤ 0x200A) || n == 0x2028 || n == 0x2029 || n == 0x202F
    || n == 0x205F || n == 0x3000

/-- Without the blank run in front. -/
def trimStart (chars : List Char) : List Char := chars.dropWhile isBlank

/-- Without the blank run at the end. -/
def trimEnd (chars : List Char) : List Char := (chars.reverse.dropWhile isBlank).reverse

/-- Without the blank runs at both ends. -/
def trimChars (chars : List Char) : List Char := trimEnd (trimStart chars)

/-- A text without the blank runs at its ends. -/
def trim (text : String) : String := String.ofList (trimChars text.toList)

/-- The trimmed text, unless nothing is left of it. -/
def nonBlank? (text : String) : Option String :=
  let trimmed := trim text
  if trimmed.isEmpty then none else some trimmed

/-! ## Letter case -/

/-- The text with A to Z made small. -/
def toAsciiLower (text : String) : String := text.map Char.toLower

/-- The text with a to z made capital. -/
def toAsciiUpper (text : String) : String := text.map Char.toUpper

/-- Equality up to the case of ASCII letters. -/
def sameIgnoringCase (a b : String) : Bool := toAsciiLower a == toAsciiLower b

/-! ## Decimal numbers -/

/-- The number of some digits. -/
def digitsValue (digits : List Char) : Nat :=
  digits.foldl (fun n c => 10 * n + (c.toNat - 48)) 0

/-- The number that a text of digits alone writes. -/
def digits? (text : List Char) : Option Nat :=
  if text.isEmpty ∨ text.any (!·.isDigit) then none else some (digitsValue text)

/-- The number that a text writes, perhaps after a plus sign. -/
def natural? : List Char → Option Nat
  | '+' :: digits => digits? digits
  | digits => digits? digits

/-- The number that a text writes, perhaps after a sign. -/
def integer? : List Char → Option Int
  | '-' :: digits => (digits? digits).map fun n => -(n : Int)
  | text => (natural? text).map Int.ofNat

end Turnstile.Text
