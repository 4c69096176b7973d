import Turnstile.Session.Context

/-!
# Token claims

The claims inside a token say where the session is stored and whose it was when the
token was made. Claims under other names are kept beside them in the same JSON object.
-/

namespace Turnstile.Session

open Json (Value Field RecordLayout ReadError)

/-- What a token says. -/
structure Claims where
  principalId : String
  displayName : String
  callerType : String
  deviceId : Option String
  /-- Unix milliseconds. -/
  issuedAtMs : Int64
  extra : Table Value
  deriving DecidableEq

namespace Claims

/-- The claims of a context's token, issued now. -/
def ofContext (c : Context) (nowMs : Int64) : Claims where
  principalId := c.principalId
  displayName := c.displayName
  callerType := c.callerType
  deviceId := c.deviceId?
  issuedAtMs := nowMs
  extra := ∅

/-- The members of the written form: the named ones, then the extra ones. An extra claim under a
named one's key is written a second time. -/
def members (c : Claims) : List (String × Value) :=
  [("principal_id", .string c.principalId), ("display_name", .string c.displayName),
    ("caller_type", .string c.callerType)] ++
  (match c.deviceId with
    | some device => [("device_id", .string device)]
    | none => []) ++
  ("issued_at_ms", .ofInt c.issuedAtMs.toInt) :: c.extra.entries

/-- The written form. -/
def toValue (c : Claims) : Value := .object c.members

/-- The claims that have been read. -/
structure Draft where
  principalId : Option String
  displayName : Option String
  callerType : Option String
  deviceId : Option (Option String)
  issuedAtMs : Option Int64
  extra : Table Value

/-- The named claims. -/
def fields : List (Json.Field Draft) := [
  .of "principal_id" false (·.principalId) (fun d x => { d with principalId := some x })
    fun _ => Json.Reader.text,
  .of "display_name" false (·.displayName) (fun d x => { d with displayName := some x })
    fun _ => Json.Reader.text,
  .of "caller_type" false (·.callerType) (fun d x => { d with callerType := some x })
    fun _ => Json.Reader.text,
  .of "device_id" true (·.deviceId) (fun d x => { d with deviceId := some x })
    fun _ => Json.Reader.optional Json.Reader.text,
  .of "issued_at_ms" false (·.issuedAtMs) (fun d x => { d with issuedAtMs := some x })
    fun _ => Json.Reader.signed]

/-- Reads a member: a named claim once, an extra one as often as it comes. -/
def member (depth : Nat) (draft : Draft) (key : String) : Json.Reader Draft := do
  match fields.find? (·.name = key) with
  | some field =>
    if field.present draft then throw (.duplicateField key)
    Json.Reader.colon
    field.read depth draft
  | none =>
    Json.Reader.colon
    return { draft with extra := draft.extra.insert key (← Json.Reader.value depth) }

/-- The claims of a draft. -/
def finish (d : Draft) : Except ReadError Claims := do
  let principalId ← Json.required "principal_id" d.principalId
  let displayName ← Json.required "display_name" d.displayName
  let callerType ← Json.required "caller_type" d.callerType
  let issuedAtMs ← Json.required "issued_at_ms" d.issuedAtMs
  return { principalId, displayName, callerType, deviceId := d.deviceId.getD none, issuedAtMs,
           extra := d.extra }

/-- Reads claims, which must be an object. -/
def read (depth : Nat) : Json.Reader Claims :=
  Json.Reader.opened '\x7b' (.record "TokenClaims") <| Json.Reader.nested depth fun depth => do
    let draft ← Json.Reader.objectBody (member depth) ⟨none, none, none, none, none, ∅⟩
    (finish draft : Except ReadError Claims)

/-- Reads claims from JSON text. -/
def parse (text : Bytes) : Except ReadError Claims :=
  Json.Reader.document (read Json.Reader.nestingLimit) text

end Claims
end Turnstile.Session
