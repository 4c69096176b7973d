import Turnstile.Bytes

/-!
# Hexadecimal text

Each octet is written as two lowercase digits, high half first. Reading accepts either letter case.
In percent-encoded text any octet may be written as a percent sign and two digits; a percent sign
without two digits behind it is an octet like any other.
-/

namespace Turnstile
namespace Hex

/-- The digit of a number below sixteen. -/
def digit (n : Nat) : Char := Char.ofNat (if n < 10 then 48 + n else 87 + n)

/-- The value of a hexadecimal digit, in either letter case. -/
def digitValue? (c : Char) : Option Nat :=
  if '0' ≤ c ∧ c ≤ '9' then some (c.toNat - 48)
  else if 'a' ≤ c ∧ c ≤ 'f' then some (c.toNat - 87)
  else if 'A' ≤ c ∧ c ≤ 'F' then some (c.toNat - 55)
  else none

/-- The two digits of an octet. -/
def pair (b : UInt8) : List Char := [digit (b.toNat / 16), digit (b.toNat % 16)]

/-- The digits of a byte string. -/
def encode (bytes : Bytes) : String := String.ofList (bytes.flatMap pair)

/-- Digits of a number without leading zeros. -/
def ofNat (n : Nat) : String := String.ofList (Nat.toDigits 16 n)

/-- Reads digit pairs; an odd digit or a foreign character is refused. -/
def decodeChars? : List Char → Option Bytes
  | [] => some []
  | [_] => none
  | a :: b :: rest =>
    match digitValue? a, digitValue? b with
    | some x, some y => (decodeChars? rest).map (UInt8.ofNat (16 * x + y) :: ·)
    | _, _ => none

/-- The byte string that a hexadecimal text denotes. -/
def decode? (text : String) : Option Bytes := decodeChars? text.toList

/-- A digit has the value it was made from. -/
theorem digitValue?_digit {n : Nat} (h : n < 16) : digitValue? (digit n) = some n := by
  have all : ∀ n < 16, digitValue? (digit n) = some n := by decide
  exact all n h

/-- Reading the digits of a byte string gives the byte string back. -/
theorem decode?_encode (bytes : Bytes) : decode? (encode bytes) = some bytes := by
  rw [decode?, encode, String.toList_ofList]
  induction bytes with
  | nil => rfl
  | cons b rest ih =>
    have high : b.toNat / 16 < 16 := by
      have := b.toNat_lt
      omega
    have low : b.toNat % 16 < 16 := Nat.mod_lt _ (by decide)
    have whole : 16 * (b.toNat / 16) + b.toNat % 16 = b.toNat := Nat.div_add_mod _ _
    simp only [List.flatMap_cons, pair, List.cons_append, List.nil_append, decodeChars?,
      digitValue?_digit high, digitValue?_digit low, ih, Option.map_some, whole]
    rw [UInt8.ofNat_toNat]

end Hex

/-- The octets of percent-encoded text; a percent sign without two digits stands for itself. -/
def Percent.decode : Bytes → Bytes
  | 0x25 :: a :: b :: rest =>
    match Hex.digitValue? (Char.ofNat a.toNat), Hex.digitValue? (Char.ofNat b.toNat) with
    | some x, some y => UInt8.ofNat (16 * x + y) :: decode rest
    | _, _ => 0x25 :: decode (a :: b :: rest)
  | c :: rest => c :: decode rest
  | [] => []

end Turnstile
