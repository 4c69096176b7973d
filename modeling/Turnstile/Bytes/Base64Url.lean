import Turnstile.Bytes

/-!
# Unpadded base64url

Three octets are written as four symbols of six bits; a rest of one or two octets takes
two or three symbols, whose spare bits are zero. Reading accepts exactly what writing
produces, and otherwise names the first fault.
-/

namespace Turnstile.Base64Url

/-- The symbol of a six-bit number. -/
def symbol (n : Nat) : Char :=
  if n < 26 then Char.ofNat (65 + n)
  else if n < 52 then Char.ofNat (71 + n)
  else if n < 62 then Char.ofNat (n - 4)
  else if n = 62 then '-'
  else '_'

/-- The six-bit number of a symbol. -/
def sextet? (b : UInt8) : Option Nat :=
  let n := b.toNat
  if 65 ≤ n ∧ n ≤ 90 then some (n - 65)
  else if 97 ≤ n ∧ n ≤ 122 then some (n - 71)
  else if 48 ≤ n ∧ n ≤ 57 then some (n + 4)
  else if n = 45 then some 62
  else if n = 95 then some 63
  else none

/-- The six-bit numbers of octets. -/
def sextets : Bytes → List Nat
  | [] => []
  | [a] => [a.toNat / 4, a.toNat % 4 * 16]
  | [a, b] => [a.toNat / 4, a.toNat % 4 * 16 + b.toNat / 16, b.toNat % 16 * 4]
  | a :: b :: c :: rest =>
    a.toNat / 4 :: (a.toNat % 4 * 16 + b.toNat / 16) ::
      (b.toNat % 16 * 4 + c.toNat / 64) :: c.toNat % 64 :: sextets rest

/-- The octets of six-bit numbers, unless spare bits are set or one number is left over. -/
def octets? : List Nat → Option Bytes
  | [] => some []
  | [_] => none
  | [a, b] => if b % 16 = 0 then some [UInt8.ofNat (a * 4 + b / 16)] else none
  | [a, b, c] =>
    if c % 4 = 0 then some [UInt8.ofNat (a * 4 + b / 16), UInt8.ofNat (b % 16 * 16 + c / 4)]
    else none
  | a :: b :: c :: d :: rest =>
    (octets? rest).map fun more =>
      UInt8.ofNat (a * 4 + b / 16) :: UInt8.ofNat (b % 16 * 16 + c / 4) ::
        UInt8.ofNat (c % 4 * 64 + d) :: more

/-- The text of octets. -/
def encode (bytes : Bytes) : String := String.ofList ((sextets bytes).map symbol)

/-- Why a text is no encoding. -/
inductive Fault
  | symbol (byte : UInt8) (offset : Nat)
  | padding
  | length (n : Nat)
  | lastSymbol (byte : UInt8) (offset : Nat)
  deriving DecidableEq, Repr

/-- The wording of a fault. -/
def Fault.message : Fault → String
  | .symbol byte offset => s!"Invalid symbol {byte}, offset {offset}."
  | .padding => "Invalid padding"
  | .length n => s!"Invalid input length: {n}"
  | .lastSymbol byte offset => s!"Invalid last symbol {byte}, offset {offset}."

/-- The padding character of other variants. -/
def pad : UInt8 := 0x3D

/-- Whether a text ends in one byte beyond groups of four, and that byte is foreign. Padding is
left to the scan from the front. -/
def strayEnd? (text : Bytes) : Option Fault :=
  match text.getLast? with
  | some last =>
    if text.length % 4 = 1 ∧ (sextet? last).isNone ∧ last ≠ pad then
      some (.symbol last (text.length - 1))
    else none
  | none => none

/-- The fault of a foreign byte at an offset, in a text of the given length, with what follows.
Padding that closes the last group is named as such. -/
def foreignFault (length : Nat) (byte : UInt8) (offset : Nat) (rest : Bytes) : Fault :=
  if byte = pad ∧ 2 ≤ offset % 4 ∧ offset / 4 = (length - 1) / 4 ∧ rest.all (· = pad) then .padding
  else .symbol byte offset

/-- The six-bit numbers of a text, or the fault of its first foreign byte. -/
def sextetsOf (length : Nat) : Nat → Bytes → Except Fault (List Nat)
  | _, [] => .ok []
  | offset, b :: rest =>
    match sextet? b with
    | some n => do return n :: (← sextetsOf length (offset + 1) rest)
    | none => .error (foreignFault length b offset rest)

/-- The octets that a text encodes. -/
def decode (text : Bytes) : Except Fault Bytes := do
  if let some fault := strayEnd? text then throw fault
  let numbers ← sextetsOf text.length 0 text
  if text.length % 4 = 1 then throw (.length text.length)
  match octets? numbers with
  | some bytes => pure bytes
  | none => throw (.lastSymbol (text.getLast?.getD 0) (text.length - 1))

end Turnstile.Base64Url
