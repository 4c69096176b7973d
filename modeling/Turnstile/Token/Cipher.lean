import Turnstile.Token.Algorithm
import Turnstile.Crypto.Gcm
import Turnstile.Crypto.Hkdf
import Turnstile.Bytes.Hex

/-!
# Tokens

A token is the base64url text of a nonce, the masked JSON text of its claims, and an
authentication tag. Its key is stretched from key material of any length; equal claims
give different tokens under different nonces.
-/

namespace Turnstile.Token

export Gcm (Nonce)

/-- Octets of a nonce. -/
def nonceLength : Nat := 12

/-- Octets of an authentication tag. -/
def tagLength : Nat := 16

/-- The salt under which an algorithm's keys are stretched. -/
def salt (algorithm : Algorithm) : Bytes :=
  Sha256.digest (Bytes.ofText "shared-guard" ++ Bytes.ofText algorithm.name)

/-- What stretched keys are for. -/
def purpose : Bytes := Bytes.ofText "shared-guard token v1"

/-- The round keys of an algorithm, stretched from key material. -/
def stretch (algorithm : Algorithm) (material : Bytes) : List Aes.Block :=
  Aes.roundKeys (Hkdf.derive (salt algorithm) material purpose algorithm.keyLength)

/-- An algorithm with its round keys, which come from some key material. -/
structure Cipher where
  algorithm : Algorithm
  roundKeys : List Aes.Block
  stretched : ∃ material : Bytes, material ≠ [] ∧ roundKeys = stretch algorithm material

namespace Cipher

/-- The cipher of some key material. -/
def ofKey (algorithm : Algorithm) (material : Bytes) (h : material ≠ []) : Cipher :=
  ⟨algorithm, stretch algorithm material, material, h, rfl⟩

/-- The cipher of some key material, unless that is empty. -/
def ofMaterial (algorithm : Algorithm) (material : Bytes) : Except CipherError Cipher :=
  if h : material = [] then .error .emptyKey else .ok (ofKey algorithm material h)

/-- The block encryption under the cipher's key. -/
def encryptBlock (cipher : Cipher) : Aes.Block → Aes.Block := Aes.encrypt cipher.roundKeys

/-- The octets of a token: nonce, masked payload, tag. -/
def frame (cipher : Cipher) (nonce : Nonce) (payload : Bytes) : Bytes :=
  nonce.toList ++ Gcm.encipher cipher.encryptBlock nonce payload

/-- The token of a payload. -/
def issue (cipher : Cipher) (nonce : Nonce) (payload : Bytes) : String :=
  Base64Url.encode (cipher.frame nonce payload)

/-- The token of a JSON value. -/
def issueValue (cipher : Cipher) (nonce : Nonce) (claims : Json.Value) : String :=
  cipher.issue nonce claims.toBytes

/-- The first octets as a nonce; zeros stand for missing ones. -/
def nonceOf (octets : Bytes) : Nonce := Vector.ofFn fun i => octets.getD i 0

/-- The payload in the octets of a token. -/
def unframe (cipher : Cipher) (octets : Bytes) : Except CipherError Bytes :=
  if octets.length < nonceLength + tagLength then
    .error (.malformed (.tooShort octets.length))
  else
    match Gcm.decipher? cipher.encryptBlock (nonceOf octets) (octets.drop nonceLength) with
    | some payload => .ok payload
    | none => .error .authentication

/-- The payload of a token, which may stand between blanks. -/
def payload (cipher : Cipher) (token : String) : Except CipherError Bytes :=
  match Base64Url.decode (Bytes.ofText (Text.trim token)) with
  | .ok octets => cipher.unframe octets
  | .error fault => .error (.malformed (.encoding fault))

/-- What a token's payload says, read by a given reader. -/
def openWith {α : Type} (cipher : Cipher) (read : Bytes → Except Json.ReadError α)
    (token : String) : Except CipherError α := do
  match read (← cipher.payload token) with
  | .ok claims => pure claims
  | .error fault => throw (.malformed (.payload fault))

/-- The JSON value in a token. -/
def openValue (cipher : Cipher) (token : String) : Except CipherError Json.Value :=
  cipher.openWith Json.parse token

/-- A description that keeps the key to itself. -/
def describe (cipher : Cipher) : String :=
  "TokenCipher \x7b algorithm: " ++ cipher.algorithm.label ++ ", .. \x7d"

end Cipher

/-- A short name for a token in log lines: the first octets of its digest. -/
def fingerprint (token : String) : String :=
  Hex.encode ((Sha256.digest (Bytes.ofText token)).take 4)

/-- Compares octet strings without stopping at the first difference: all differences are
gathered in one octet. -/
def sameOctets (a b : Bytes) : Bool :=
  a.length == b.length && (List.zipWith (· ^^^ ·) a b).foldl (· ||| ·) 0 == 0

/-- Compares texts the same way. -/
def sameText (a b : String) : Bool := sameOctets (Bytes.ofText a) (Bytes.ofText b)

end Turnstile.Token
