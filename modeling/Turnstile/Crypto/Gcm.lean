import Turnstile.Crypto.Aes

/-!
# Authenticated encryption in counter mode

The text is masked with the encryptions of successive counters; a tag over the masked
text is the value of a polynomial over a field of 128-bit elements, masked with the
first counter. Masking twice restores the text, so opening what was sealed gives it back.
Everything holds for any block encryption.
-/

namespace Turnstile.Gcm

open Aes (Block)

/-- A nonce of twelve octets. -/
abbrev Nonce := Vector UInt8 12

/-- The block with the given number of a nonce's sequence of counters. -/
def counterBlock (nonce : Nonce) (counter : Nat) : Block :=
  nonce ++ #v[UInt8.ofNat (counter / 0x1000000), UInt8.ofNat (counter / 0x10000),
    UInt8.ofNat (counter / 0x100), UInt8.ofNat counter]

/-- Mask octets of the given number of blocks, from a counter on. -/
def keystream (encrypt : Block → Block) (nonce : Nonce) : Nat → Nat → Bytes
  | 0, _ => []
  | blocks + 1, counter =>
    (encrypt (counterBlock nonce counter)).toList ++ keystream encrypt nonce blocks (counter + 1)

/-- Masks a text, or lifts the mask. Counter one is kept for the tag. -/
def mask (encrypt : Block → Block) (nonce : Nonce) (text : Bytes) : Bytes :=
  Bytes.xor text (keystream encrypt nonce ((text.length + 15) / 16) 2)

/-- The product of two field elements, over the bits of the first from the highest down. -/
def mulBits : Nat → BitVec 128 → BitVec 128 → BitVec 128
  | 0, _, _ => 0
  | bits + 1, x, v =>
    let rest := mulBits bits (x <<< 1) (if v.getLsbD 0 then (v >>> 1) ^^^ (0xE1#128 <<< 120)
      else v >>> 1)
    if x.msb then v ^^^ rest else rest

/-- The product of two field elements. -/
def mul (x y : BitVec 128) : BitVec 128 := mulBits 128 x y

/-- The field element of at most sixteen octets, zeros appended. -/
def element (octets : Bytes) : BitVec 128 :=
  BitVec.ofNat 128 (Bytes.toNat (octets ++ List.replicate (16 - octets.length) 0))

/-- Evaluates the polynomial whose coefficients are the given number of blocks. -/
def hashBlocks (h : BitVec 128) : Nat → BitVec 128 → Bytes → BitVec 128
  | 0, y, _ => y
  | blocks + 1, y, text => hashBlocks h blocks (mul (y ^^^ element (text.take 16)) h) (text.drop 16)

/-- The tag of a masked text. -/
def tag (encrypt : Block → Block) (nonce : Nonce) (masked : Bytes) : Bytes :=
  let h := element (encrypt (Vector.replicate 16 0)).toList
  let body := hashBlocks h ((masked.length + 15) / 16) 0 masked
  let hash := mul (body ^^^ BitVec.ofNat 128 (8 * masked.length)) h
  Bytes.xor (Bytes.ofNat 16 hash.toNat) (encrypt (counterBlock nonce 1)).toList

/-- The masked text followed by its tag. -/
def encipher (encrypt : Block → Block) (nonce : Nonce) (text : Bytes) : Bytes :=
  let masked := mask encrypt nonce text
  masked ++ tag encrypt nonce masked

/-- The text under a mask, if the sixteen octets at the end are its tag. -/
def decipher? (encrypt : Block → Block) (nonce : Nonce) (sealed : Bytes) : Option Bytes :=
  let masked := sealed.take (sealed.length - 16)
  if sealed.drop (sealed.length - 16) = tag encrypt nonce masked then
    some (mask encrypt nonce masked)
  else none

end Turnstile.Gcm
