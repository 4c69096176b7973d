import Turnstile.Crypto.Sha256

/-!
# Key stretching with HMAC-SHA256

Key material of any length is first condensed under a salt, then expanded into as many
octets as asked for, bound to a purpose.
-/

namespace Turnstile.Hkdf

/-- A key brought to the block size of the hash. -/
def blockKey (key : Bytes) : Bytes :=
  let key := if 64 < key.length then Sha256.digest key else key
  key ++ List.replicate (64 - key.length) 0

/-- The keyed digest of a message. -/
def mac (key message : Bytes) : Bytes :=
  let key := blockKey key
  Sha256.digest (key.map (· ^^^ 0x5C) ++ Sha256.digest (key.map (· ^^^ 0x36) ++ message))

/-- The blocks of output from number `index` on, each chained to the one before it. -/
def blocks (secret purpose : Bytes) : Nat → Nat → Bytes → Bytes
  | 0, _, _ => []
  | count + 1, index, previous =>
    let block := mac secret (previous ++ purpose ++ [UInt8.ofNat index])
    block ++ blocks secret purpose count (index + 1) block

/-- Derives `length` octets for a purpose from key material. -/
def derive (salt material purpose : Bytes) (length : Nat) : Bytes :=
  (blocks (mac salt material) purpose ((length + 31) / 32) 1 []).take length

end Turnstile.Hkdf
