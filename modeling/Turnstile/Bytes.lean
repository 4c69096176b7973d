/-!
# Byte strings

Bytes are a plain list of octets. Text enters and leaves through UTF-8: every
text has bytes, and exactly the well-formed byte strings have a text.
-/

namespace Turnstile

/-- A byte string. -/
abbrev Bytes := List UInt8

namespace Bytes

/-- The UTF-8 encoding of a text. -/
def ofText (text : String) : Bytes := text.toByteArray.data.toList

/-- The text that a byte string encodes, if it is well-formed UTF-8. -/
def toText? (bytes : Bytes) : Option String := String.fromUTF8? ⟨bytes.toArray⟩

/-- Reading the encoding of a text gives the text back. -/
theorem toText?_ofText (text : String) : toText? (ofText text) = some text := by
  show String.fromUTF8? text.toByteArray = some text
  simp only [String.fromUTF8?, dif_pos text.isValidUTF8]
  rfl

/-- A byte string with a text is the encoding of that text. -/
theorem ofText_of_toText? {bytes : Bytes} {text : String} (h : toText? bytes = some text) :
    ofText text = bytes := by
  simp only [toText?, String.fromUTF8?] at h
  split at h
  · cases h
    rfl
  · cases h

/-- Big-endian octets of a number, in a field of the given width. -/
def ofNat : Nat → Nat → Bytes
  | 0, _ => []
  | width + 1, n => ofNat width (n / 256) ++ [UInt8.ofNat (n % 256)]

/-- A field has its width whatever the number. -/
@[simp] theorem length_ofNat (width n : Nat) : (ofNat width n).length = width := by
  induction width generalizing n with
  | zero => rfl
  | succ width ih => simp [ofNat, ih]

/-- The number whose big-endian octets these are. -/
def toNat (bytes : Bytes) : Nat := bytes.foldl (fun n b => n * 256 + b.toNat) 0

/-- Octet by octet exclusive or, as long as the shorter operand. -/
def xor (a b : Bytes) : Bytes := List.zipWith (· ^^^ ·) a b

/-- Applying the same mask twice restores the bytes it covers. -/
theorem xor_xor_cancel {a mask : Bytes} (h : a.length ≤ mask.length) :
    xor (xor a mask) mask = a := by
  induction a generalizing mask with
  | nil => rfl
  | cons x a ih =>
    cases mask with
    | nil => simp at h
    | cons m mask =>
      have hx : x ^^^ m ^^^ m = x := by rw [UInt8.xor_assoc, UInt8.xor_self, UInt8.xor_zero]
      simpa [xor, hx] using ih (by simpa using h)

end Bytes
end Turnstile
