import Turnstile.Key.Operation
import Turnstile.Lock.Kind
import Turnstile.Session.Carrier
import Turnstile.Time
import Turnstile.Token.Cipher

/-!
# Settings

What a node needs to know: the store's address, the cipher of the tokens, where requests
carry credentials, the caller types with their sessions, and how locks are waited for.
-/

namespace Turnstile

open Json (Value)

/-- How a caller type's session is found. -/
inductive Binding
  /-- By the principal's id. -/
  | principal
  /-- By the device the client names. -/
  | device
  deriving DecidableEq, Repr, Inhabited

/-- The name of a binding. -/
def Binding.name : Binding → String
  | .principal => "principal"
  | .device => "device"

/-- Reads the name of a binding, up to letter case and blanks around it; on failure yields the
name that was not known. -/
def Binding.parse (text : String) : Except String Binding :=
  let name := Text.toAsciiLower (Text.trim text)
  if name = "principal" then .ok .principal
  else if name = "device" then .ok .device
  else .error name

/-- A binding is read from its name. -/
theorem Binding.parse_name (binding : Binding) : Binding.parse binding.name = .ok binding := by
  have hname : Text.toAsciiLower (Text.trim binding.name) = binding.name := by
    cases binding <;> decide +kernel
  rw [Binding.parse, hname]
  cases binding <;> rfl

/-- The sessions of a caller type. -/
structure CallerType where
  name : String
  binding : Binding
  /-- Seconds that a session lasts; none and zero mean without end. -/
  ttlSecs : Option UInt64
  keyTemplate : String
  /-- Whether every use of a session begins its time anew. -/
  sliding : Bool
  deriving DecidableEq, Repr

namespace CallerType

/-- A caller type whose sessions last without end. -/
def ofName (name : String) (binding : Binding) : CallerType :=
  { name, binding, ttlSecs := none, keyTemplate := Key.defaultTemplate, sliding := false }

/-- The caller type with sessions that last so long. A part of a second counts as a whole one. -/
def withTtl (c : CallerType) (ttl : Duration) : CallerType :=
  { c with ttlSecs := some (UInt64.ofNat ((ttl + 999999999) / 1000000000)) }

/-- Seconds that a session lasts, if it ends at all. -/
def ttlSecs? (c : CallerType) : Option Nat :=
  match c.ttlSecs with
  | some secs => if secs = 0 then none else some secs.toNat
  | none => none

/-- How long a session lasts, if it ends at all. -/
def ttl? (c : CallerType) : Option Duration := c.ttlSecs?.map Duration.ofSecs

/-- The key under which the session of a binding key is stored. -/
def sessionKey (c : CallerType) (bindingKey : String) : String :=
  Key.sessionKey c.keyTemplate c.name bindingKey

/-- The written form. -/
def toValue (c : CallerType) : Value := .object [
  ("name", .string c.name),
  ("binding", .string c.binding.name),
  ("ttl_secs", match c.ttlSecs with
    | some secs => .ofInt secs.toNat
    | none => .null),
  ("key_template", .string c.keyTemplate),
  ("sliding", .bool c.sliding)]

end CallerType

/-- How locks are waited for and kept. -/
structure LockSettings where
  waitMs : UInt64
  /-- Zero disables the lease. -/
  leaseMs : UInt64
  kind : Lock.Kind
  keyPrefix : String
  ignoredTypes : List String
  deriving DecidableEq, Repr

namespace LockSettings

/-- Three seconds of waiting, half a minute of lease. -/
def standard : LockSettings where
  waitMs := 3000
  leaseMs := 30000
  kind := .exclusive
  keyPrefix := "lock:"
  ignoredTypes := []

/-- How long a lock is waited for. -/
def wait (l : LockSettings) : Duration := .ofMillis l.waitMs.toNat

/-- How long after its acquisition a lock lapses, if it does. -/
def lease? (l : LockSettings) : Option Duration :=
  if l.leaseMs = 0 then none else some (.ofMillis l.leaseMs.toNat)

/-- Derives the keys of locks. -/
def deriver (l : LockSettings) : Key.Deriver := ⟨l.ignoredTypes⟩

/-- The written form. -/
def toValue (l : LockSettings) : Value := .object [
  ("wait_ms", .ofInt l.waitMs.toNat),
  ("lease_ms", .ofInt l.leaseMs.toNat),
  ("kind", .string l.kind.name),
  ("key_prefix", .string l.keyPrefix),
  ("ignored_types", .array (l.ignoredTypes.map .string))]

end LockSettings

/-- The cipher of the tokens and its key material. -/
structure CipherSettings where
  algorithm : Token.Algorithm
  key : String
  deriving DecidableEq, Repr

namespace CipherSettings

/-- The written form. -/
def toValue (c : CipherSettings) : Value :=
  .object [("algorithm", .string c.algorithm.name), ("key", .string c.key)]

/-- A description that keeps the key to itself. -/
def describe (c : CipherSettings) : String :=
  "CipherSettings \x7b algorithm: " ++ c.algorithm.label ++ ", key: \"<redacted>\" \x7d"

/-- The cipher. -/
def cipher (c : CipherSettings) : Except Token.CipherError Token.Cipher :=
  Token.Cipher.ofMaterial c.algorithm (Bytes.ofText c.key)

end CipherSettings

/-- The written form of the places of credentials. -/
def Session.Carrier.toValue (c : Session.Carrier) : Value := .object [
  ("token_header", .string c.tokenHeader),
  ("token_param", .string c.tokenParam),
  ("device_header", .string c.deviceHeader),
  ("user_id_header", .string c.userIdHeader),
  ("login_path", .string c.loginPath)]

/-- All settings. -/
structure Settings where
  redisUrl : String
  cipher : CipherSettings
  carrier : Session.Carrier
  callerTypes : List CallerType
  lock : LockSettings
  deriving DecidableEq, Repr

namespace Settings

/-- The first caller type of a name. -/
def callerType? (s : Settings) (name : String) : Option CallerType :=
  s.callerTypes.find? (·.name = name)

/-- The written form. -/
def toValue (s : Settings) : Value := .object [
  ("redis_url", .string s.redisUrl),
  ("cipher", s.cipher.toValue),
  ("carrier", s.carrier.toValue),
  ("caller_types", .array (s.callerTypes.map CallerType.toValue)),
  ("lock", s.lock.toValue)]

end Settings
end Turnstile
