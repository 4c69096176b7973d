import Turnstile.Bytes

/-!
# Damaged text

Octets that are not well-formed UTF-8 can still be read: every piece that begins a
character and breaks off, and every octet that begins none, counts as one unreadable
character. A piece reaches as far as some character goes on that way.
-/

namespace Turnstile.Bytes

/-- The character that stands for an unreadable one. -/
def unreadable : Char := '\ufffd'

/-- How many octets go on a character after its first one, and between which bounds the next of
them lies. An octet that begins no character is followed by none. -/
def continuation (lead : UInt8) : Nat × UInt8 × UInt8 :=
  if lead < 0xC2 then (0, 0x80, 0xBF)
  else if lead < 0xE0 then (1, 0x80, 0xBF)
  else if lead = 0xE0 then (2, 0xA0, 0xBF)
  else if lead = 0xED then (2, 0x80, 0x9F)
  else if lead < 0xF0 then (2, 0x80, 0xBF)
  else if lead = 0xF0 then (3, 0x90, 0xBF)
  else if lead < 0xF4 then (3, 0x80, 0xBF)
  else if lead = 0xF4 then (3, 0x80, 0x8F)
  else (0, 0x80, 0xBF)

/-- The octets at the front that go on a character, no more than so many. -/
def continuing : Nat × UInt8 × UInt8 → Bytes → Bytes
  | (count + 1, low, high), octet :: rest =>
    if low ≤ octet ∧ octet ≤ high then octet :: continuing (count, 0x80, 0xBF) rest else []
  | _, _ => []

/-- The characters of octets, readable or not. -/
def characters : Bytes → List Char
  | [] => []
  | lead :: rest =>
    let more := continuing (continuation lead) rest
    let piece := (toText? (lead :: more)).elim [unreadable] String.toList
    piece ++ characters (rest.drop more.length)
  termination_by octets => octets.length

/-- The text of octets, with unreadable characters where they are damaged. -/
def repaired (octets : Bytes) : String := String.ofList (characters octets)

end Turnstile.Bytes
