import Turnstile.Json.Record
import Turnstile.Time

/-!
# Identity contexts and session records

A context says who a caller is. The store keeps it inside a record, next to the instant
at which the session was meant to end. Records are written as JSON with their fields in
a fixed order, and read back from objects or arrays in which defaulted fields may be
missing.
-/

namespace Turnstile.Session

open Json (Value Field RecordLayout ReadError)

/-- An authenticated caller. -/
structure Context where
  principalId : String
  displayName : String
  /-- The identity domain, such as a console or a mobile application. -/
  callerType : String
  authorities : Table Unit
  metadata : Table Value
  enabled : Bool
  locked : Bool
  expired : Bool
  deriving DecidableEq

/-- The metadata key of the current token. -/
def tokenKey : String := "token"

/-- The metadata key of the bound device. -/
def deviceKey : String := "device_id"

namespace Context

/-- A caller with nothing but a name. -/
def ofNames (principalId displayName callerType : String) : Context :=
  { principalId, displayName, callerType, authorities := ∅, metadata := ∅, enabled := true,
    locked := false, expired := false }

/-- The caller with one more authority. -/
def withAuthority (c : Context) (authority : String) : Context :=
  { c with authorities := c.authorities.insert authority () }

/-- The caller with a metadata entry. -/
def withMetadata (c : Context) (key : String) (value : Value) : Context :=
  { c with metadata := c.metadata.insert key value }

/-- The caller bound to a device. -/
def withDevice (c : Context) (deviceId : String) : Context :=
  c.withMetadata deviceKey (.string deviceId)

/-- The caller with a current token. -/
def withToken (c : Context) (token : String) : Context := c.withMetadata tokenKey (.string token)

/-- The caller without a current token. -/
def withoutToken (c : Context) : Context := { c with metadata := c.metadata.erase tokenKey }

/-- The current token, if it is a text. -/
def token? (c : Context) : Option String := (c.metadata.get? tokenKey).bind Value.text?

/-- The bound device, if it is a text. -/
def deviceId? (c : Context) : Option String := (c.metadata.get? deviceKey).bind Value.text?

/-- The current token stands in the metadata as a text. -/
theorem token?_eq_some_iff {c : Context} {token : String} :
    c.token? = some token ↔ c.metadata.get? "token" = some (.string token) := by
  simp only [token?, tokenKey, Option.bind_eq_some_iff, Value.text?_eq_some_iff, exists_eq_right]

/-- The bound device stands in the metadata as a text. -/
theorem deviceId?_eq_some_iff {c : Context} {device : String} :
    c.deviceId? = some device ↔ c.metadata.get? "device_id" = some (.string device) := by
  simp only [deviceId?, deviceKey, Option.bind_eq_some_iff, Value.text?_eq_some_iff,
    exists_eq_right]

/-- Whether the caller has an authority. -/
def hasAuthority (c : Context) (authority : String) : Bool := c.authorities.contains authority

/-- Enabled, neither locked nor expired. -/
def isActive (c : Context) : Bool := c.enabled && !c.locked && !c.expired

/-- The members of the written form, in order. -/
def members (c : Context) : List (String × Value) := [
  ("principal_id", .string c.principalId),
  ("display_name", .string c.displayName),
  ("caller_type", .string c.callerType),
  ("authorities", .array (c.authorities.keys.map .string)),
  ("metadata", .ofTable c.metadata),
  ("enabled", .bool c.enabled),
  ("locked", .bool c.locked),
  ("expired", .bool c.expired)]

/-- The written form. -/
def toValue (c : Context) : Value := .object c.members

/-- The fields of a context that have been read. -/
structure Draft where
  principalId : Option String
  displayName : Option String
  callerType : Option String
  authorities : Option (Table Unit)
  metadata : Option (Table Value)
  enabled : Option Bool
  locked : Option Bool
  expired : Option Bool

/-- A set of texts. -/
def readAuthorities (depth : Nat) : Json.Reader (Table Unit) := do
  let names ← Json.Reader.list (fun _ => Json.Reader.text) depth
  pure (Table.ofList (names.map (·, ())))

/-- How a context is read. -/
def layout : RecordLayout Draft Context where
  name := "IdentityContext"
  fields := [
    .of "principal_id" false (·.principalId) (fun d x => { d with principalId := some x })
      fun _ => Json.Reader.text,
    .of "display_name" false (·.displayName) (fun d x => { d with displayName := some x })
      fun _ => Json.Reader.text,
    .of "caller_type" false (·.callerType) (fun d x => { d with callerType := some x })
      fun _ => Json.Reader.text,
    .of "authorities" true (·.authorities) (fun d x => { d with authorities := some x })
      readAuthorities,
    .of "metadata" true (·.metadata) (fun d x => { d with metadata := some x })
      (Json.Reader.table Json.Reader.value),
    .of "enabled" true (·.enabled) (fun d x => { d with enabled := some x })
      fun _ => Json.Reader.flag,
    .of "locked" true (·.locked) (fun d x => { d with locked := some x })
      fun _ => Json.Reader.flag,
    .of "expired" true (·.expired) (fun d x => { d with expired := some x })
      fun _ => Json.Reader.flag]
  blank := ⟨none, none, none, none, none, none, none, none⟩
  finish d := do
    let principalId ← Json.required "principal_id" d.principalId
    let displayName ← Json.required "display_name" d.displayName
    let callerType ← Json.required "caller_type" d.callerType
    return { principalId, displayName, callerType,
             authorities := d.authorities.getD ∅,
             metadata := d.metadata.getD ∅,
             enabled := d.enabled.getD true,
             locked := d.locked.getD false,
             expired := d.expired.getD false }

/-- Reads a context from JSON text. -/
def parse (text : Bytes) : Except ReadError Context := layout.parse text

end Context

/-- What the store keeps of a session. -/
structure Record where
  context : Context
  /-- Unix milliseconds; the store itself enforces the expiry. -/
  expiresAtMs : Option Int64
  deriving DecidableEq

namespace Record

/-- The record of a session that begins now and lasts so long. The sum of milliseconds is taken
in 64-bit arithmetic. -/
def begin (context : Context) (nowMs : Int64) (ttl : Option Duration) : Record :=
  { context, expiresAtMs := ttl.map fun span => nowMs + Int64.ofNat span.toMillis }

/-- A signed number, or null. -/
def optionalSigned : Option Int64 → Value
  | some n => .ofInt n.toInt
  | none => .null

/-- The written form. -/
def toValue (r : Record) : Value :=
  .object [("context", r.context.toValue), ("expires_at_ms", optionalSigned r.expiresAtMs)]

/-- The stored octets. -/
def toBytes (r : Record) : Bytes := r.toValue.toBytes

/-- The fields of a record that have been read. -/
structure Draft where
  context : Option Context
  expiresAtMs : Option (Option Int64)

/-- How a record is read. -/
def layout : RecordLayout Draft Record where
  name := "SessionRecord"
  fields := [
    .of "context" false (·.context) (fun d x => { d with context := some x }) Context.layout.read,
    .of "expires_at_ms" false (·.expiresAtMs) (fun d x => { d with expiresAtMs := some x })
      fun _ => Json.Reader.optional Json.Reader.signed]
  blank := ⟨none, none⟩
  finish d := do
    return { context := ← Json.required "context" d.context,
             expiresAtMs := d.expiresAtMs.getD none }

/-- Reads a record from stored octets. -/
def ofBytes (octets : Bytes) : Except ReadError Record := layout.parse octets

end Record
end Turnstile.Session
