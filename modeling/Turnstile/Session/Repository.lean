import Turnstile.Session.Claims
import Turnstile.Session.Failure
import Turnstile.Settings.Basic
import Turnstile.Store.Program

/-!
# The repository of sessions

A session is stored under the key of its caller type and binding key, and its record
names the one token that is valid for it: saving a context with a new token revokes the
old one. A token is opened to find the key, and then compared with the record.
-/

namespace Turnstile.Session

open Store (Action)

/-- What a session operation takes from outside: the clock and chance. -/
structure Moment where
  /-- Unix milliseconds. -/
  unixMs : Int64
  /-- The nonce of a token that is issued. -/
  nonce : Token.Nonce
  deriving DecidableEq

/-- A context found through its token, with the key of its session. -/
structure Located where
  context : Context
  sessionKey : String
  deriving DecidableEq

/-- The cipher of the tokens and the known caller types. -/
structure Repository where
  cipher : Token.Cipher
  callerTypes : Table CallerType

namespace Repository

/-- The repository of some caller types, of which a later one replaces one of its name. -/
def ofCallerTypes (cipher : Token.Cipher) (callerTypes : List CallerType) : Repository :=
  ⟨cipher, Table.ofList (callerTypes.map fun c => (c.name, c))⟩

variable (repository : Repository)

/-- The caller type of a name. -/
def callerType? (name : String) : Option CallerType := repository.callerTypes.get? name

/-- The caller type of a name, for an operation that needs it. -/
def settingsFor (name : String) : Except IdentityError CallerType :=
  match repository.callerType? name with
  | some callerType => .ok callerType
  | none => .error (.unknownCallerType name)

/-! ## Finding a session by its token -/

/-- What the claims of a token are bound to under its caller type. -/
def bindingKey (callerType : CallerType) (claims : Claims) : Except ResolveError String :=
  match callerType.binding with
  | .principal => .ok claims.principalId
  | .device =>
    match claims.deviceId with
    | some device => .ok device
    | none => .error .missingDevice

/-- The claims of a token, their caller type, and the key of their session. -/
def address (token : String) : Except ResolveError (Claims × CallerType × String) := do
  let claims ← (repository.cipher.openWith Claims.parse token).mapError .cipher
  match repository.callerType? claims.callerType with
  | none => throw (.unknownCallerType claims.callerType)
  | some callerType =>
    return (claims, callerType, callerType.sessionKey (← bindingKey callerType claims))

/-- Whether a text is the current token of a context. -/
def isCurrentToken (context : Context) (token : String) : Bool :=
  context.token?.any (Token.sameText · token)

/-- The context in a stored record, if the token is current, the device is the bound one, and the
identity is active. -/
def verify (token : String) (claims : Claims) (octets : Bytes) : Except ResolveError Context := do
  let record ← (Record.ofBytes octets).mapError .corruptRecord
  let context := record.context
  if !isCurrentToken context token then throw .tokenSuperseded
  if context.deviceId?.any fun bound => claims.deviceId != some bound then throw .deviceMismatch
  if !context.isActive then throw .inactive
  return context

/-- Begins the time of a sliding session anew. A failure is only logged. -/
def refresh (callerType : CallerType) (sessionKey : String) : Action ResolveError Unit := do
  if callerType.sliding then
    if let some ttl := callerType.ttl? then
      if let .error e ← Action.attempt (.expire sessionKey ttl) then
        Action.tell .warn s!"Failed to refresh session {sessionKey}: {e.message}"

/-- The live session of a token. -/
def locate (token : String) : Action ResolveError Located := do
  let (claims, callerType, sessionKey) ← Action.of (repository.address token)
  match ← Action.ask (.get sessionKey) ResolveError.store with
  | none => throw .sessionNotFound
  | some octets =>
    let context ← Action.of (verify token claims octets)
    refresh callerType sessionKey
    return { context, sessionKey }

/-- The context of a token, or why there is none. -/
def authenticate (token : String) : Action ResolveError Context := do
  return (← repository.locate token).context

/-- What becomes of a resolve error: only the store's failure is one, and the rest is logged. -/
def recover (token : String) (error : ResolveError) : Action IdentityError Unit :=
  let fingerprint := Token.fingerprint token
  match error with
  | .store e => do
    Action.tell .error s!"Session store failed resolving token {fingerprint}: {e.message}"
    throw (.ofStore e)
  | .corruptRecord fault =>
    Action.tell .error s!"Corrupt session record for token {fingerprint}: {fault.message}"
  | e => Action.tell .debug s!"Token {fingerprint} not authenticated: {e.message}"

/-- The context of a token, if it has a live session. -/
def resolve (token : String) : Action IdentityError (Option Context) := do
  match ← ((repository.authenticate token).run : Store.Program _) with
  | .ok context => return some context
  | .error e =>
    recover token e
    return none

/-- The context of a request's token. A device that the request names must be the bound one. -/
def resolveRequest (credentials : Credentials) : Action IdentityError (Option Context) := do
  let some token := credentials.token | return none
  let some context ← repository.resolve token | return none
  match credentials.deviceId, context.deviceId? with
  | some presented, some bound =>
    if presented = bound then return some context
    else
      let fingerprint := Token.fingerprint token
      Action.tell .debug
        s!"Token {fingerprint} presented from device {presented} but bound to {bound}"
      return none
  | _, _ => return some context

/-! ## Writing a session -/

/-- The context as it is stored under a binding key. A context without a device takes the key of a
device-bound session as its device. -/
def bind (context : Context) (callerType : CallerType) (bindingKey : String) :
    Except IdentityError Context :=
  let mismatch := .error (.bindingMismatch callerType.name bindingKey)
  match callerType.binding with
  | .principal => if context.principalId = bindingKey then .ok context else mismatch
  | .device =>
    match context.deviceId? with
    | none => .ok (context.withDevice bindingKey)
    | some device => if device = bindingKey then .ok context else mismatch

/-- The context with a token; one is issued if it has none. -/
def withCurrentToken (context : Context) (moment : Moment) : Context :=
  match context.token? with
  | some _ => context
  | none =>
    let claims := Claims.ofContext context moment.unixMs
    context.withToken (repository.cipher.issueValue moment.nonce claims.toValue)

/-- Stores a context under a binding key, and yields it as it was stored. -/
def save (context : Context) (bindingKey : String) (moment : Moment) :
    Action IdentityError Context := do
  let callerType ← Action.of (repository.settingsFor context.callerType)
  let bound ← Action.of (bind context callerType bindingKey)
  let stored := repository.withCurrentToken bound moment
  let sessionKey := callerType.sessionKey bindingKey
  let record := Record.begin stored moment.unixMs callerType.ttl?
  Action.ask (.set sessionKey record.toBytes callerType.ttl?) IdentityError.ofStore
  let fingerprint := (stored.token?.map Token.fingerprint).getD ""
  Action.tell .debug s!"Saved session {sessionKey} with token {fingerprint}"
  return stored

/-- Stores a context with a new token, which revokes the one before it. -/
def login (context : Context) (bindingKey : String) (moment : Moment) :
    Action IdentityError Context := do
  let stored ← repository.save context.withoutToken bindingKey moment
  Action.tell .info s!"Login for {stored.principalId} ({stored.callerType})"
  return stored

/-- The readable context stored under a key. -/
def existing? (sessionKey : String) : Action IdentityError (Option Context) := do
  match ← Action.ask (.get sessionKey) IdentityError.ofStore with
  | none => return none
  | some octets =>
    match Record.ofBytes octets with
    | .ok record => return some record.context
    | .error fault =>
      Action.tell .warn s!"Replacing unreadable session {sessionKey}: {fault.message}"
      return none

/-- Whether a device's session may be replaced: by whoever presents its current token, and for the
stored principal also by its user id or by a login without one. -/
def mayReplace (stored incoming : Context) (binding : DeviceBinding) : Bool :=
  binding.presentedToken.any (isCurrentToken stored) ||
    (incoming.principalId == stored.principalId &&
      (binding.presentedUserId == some stored.principalId ||
        (binding.isLogin && binding.presentedUserId.isNone)))

/-- Refuses a device's write that may not replace the session, or not create one. -/
def admitDeviceWrite (existing : Option Context) (incoming : Context) (binding : DeviceBinding) :
    Action IdentityError Unit :=
  match existing with
  | none => if binding.isLogin then pure () else throw (.noDeviceSession binding.deviceId)
  | some stored =>
    if mayReplace stored incoming binding then pure ()
    else do
      Action.tell .warn <|
        s!"Refused overwrite of device {binding.deviceId} session for principal " ++
          incoming.principalId
      throw (.deviceSessionConflict binding.deviceId)

/-- Stores a device-bound context, unless the device has a session that the caller does not own. -/
def saveForDevice (context : Context) (binding : DeviceBinding) (moment : Moment) :
    Action IdentityError Context := do
  let callerType ← Action.of (repository.settingsFor context.callerType)
  if callerType.binding ≠ .device then throw (.notDeviceBound context.callerType)
  let existing ← existing? (callerType.sessionKey binding.deviceId)
  admitDeviceWrite existing context binding
  let incoming := if binding.isLogin then context.withoutToken else context
  repository.save incoming binding.deviceId moment

/-! ## Ending a session -/

/-- Removes the session of a binding key, and tells whether there was one. -/
def invalidate (callerType bindingKey : String) : Action IdentityError Bool := do
  let sessionKey := (← Action.of (repository.settingsFor callerType)).sessionKey bindingKey
  let removed : Bool ← Action.ask (.delete sessionKey) IdentityError.ofStore
  if removed then Action.tell .info s!"Invalidated session {sessionKey}"
  return removed

/-- Removes the session of a token, if the token is current. -/
def logout (token : String) : Action IdentityError Bool := do
  match ← ((repository.locate token).run : Store.Program _) with
  | .ok located => do
    let _ : Bool ← Action.ask (.delete located.sessionKey) IdentityError.ofStore
    Action.tell .info
      s!"Logout for {located.context.principalId} ({located.context.callerType})"
    return true
  | .error e =>
    recover token e
    return false

end Repository
end Turnstile.Session
