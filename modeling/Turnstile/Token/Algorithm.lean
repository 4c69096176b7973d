import Turnstile.Bytes.Base64Url
import Turnstile.Json.Reader
import Turnstile.Text.Basic

/-!
# Cipher algorithms

Tokens are protected by AES in Galois counter mode, with a key of either size. The
errors of everything that concerns tokens are listed here with their wording.
-/

namespace Turnstile.Token

/-- The supported ciphers. -/
inductive Algorithm
  | aes256
  | aes128
  deriving DecidableEq, Repr, Inhabited

namespace Algorithm

/-- The canonical name. -/
def name : Algorithm → String
  | .aes256 => "AES-256-GCM"
  | .aes128 => "AES-128-GCM"

/-- The name without punctuation, as descriptions of a cipher show it. -/
def label : Algorithm → String
  | .aes256 => "Aes256Gcm"
  | .aes128 => "Aes128Gcm"

/-- Octets in a key. -/
def keyLength : Algorithm → Nat
  | .aes256 => 32
  | .aes128 => 16

end Algorithm

/-- What is malformed about a token. -/
inductive Malformation
  | encoding (fault : Base64Url.Fault)
  | tooShort (octets : Nat)
  | payload (fault : Json.ReadError)
  | described (text : String)
  deriving DecidableEq

/-- The wording of a malformation. -/
def Malformation.message : Malformation → String
  | .encoding fault => "not base64url: " ++ fault.message
  | .tooShort octets => s!"token too short: {octets} bytes"
  | .payload fault => "claims payload: " ++ fault.message
  | .described text => text

/-- Why a token was not made or not opened. -/
inductive CipherError
  | unsupportedAlgorithm (name : String)
  | emptyKey
  | derivation (detail : String)
  | encoding (detail : String)
  | malformed (what : Malformation)
  | authentication
  | encryption
  deriving DecidableEq

/-- The name of the kind of a cipher error. -/
def CipherError.kind : CipherError → String
  | .unsupportedAlgorithm _ => "UnsupportedAlgorithm"
  | .emptyKey => "InvalidKeyMaterial"
  | .derivation _ => "KeyDerivation"
  | .encoding _ => "Encoding"
  | .malformed _ => "Malformed"
  | .authentication => "Authentication"
  | .encryption => "Encryption"

/-- The wording of a cipher error. -/
def CipherError.message : CipherError → String
  | .unsupportedAlgorithm name => "Unsupported cipher algorithm: " ++ name
  | .emptyKey => "Key material must not be empty"
  | .derivation detail => "Key derivation failed: " ++ detail
  | .encoding detail => "Failed to encode claims: " ++ detail
  | .malformed what => "Malformed token: " ++ what.message
  | .authentication => "Token failed authentication (wrong key or tampered ciphertext)"
  | .encryption => "Encryption failed"

/-- Reads an algorithm's name: blanks around it, letter case and the choice between hyphen and
underscore do not matter. -/
def Algorithm.parse (text : String) : Except CipherError Algorithm :=
  let name := (Text.toAsciiUpper (Text.trim text)).map fun c => if c = '_' then '-' else c
  if name = "AES-256-GCM" ∨ name = "AES256GCM" then .ok .aes256
  else if name = "AES-128-GCM" ∨ name = "AES128GCM" then .ok .aes128
  else .error (.unsupportedAlgorithm name)

/-- An algorithm is read from its name. -/
theorem Algorithm.parse_name (algorithm : Algorithm) :
    Algorithm.parse algorithm.name = .ok algorithm := by
  have hname : ((Text.toAsciiUpper (Text.trim algorithm.name)).map
      fun c => if c = '_' then '-' else c) = algorithm.name := by
    cases algorithm <;> decide +kernel
  rw [parse, hname]
  cases algorithm <;> rfl

end Turnstile.Token
