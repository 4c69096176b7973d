import Turnstile.Store.Call
import Turnstile.Token.Algorithm

/-!
# Failures of session operations

A presented token may fail to lead to a session for many reasons, all of which make the
caller anonymous except one: a store that did not answer. Operations that write have
failures of their own.
-/

namespace Turnstile.Session

open Store (StoreError)
open Token (CipherError)

/-- Why a presented token does not lead to a live session. -/
inductive ResolveError
  | cipher (error : CipherError)
  | unknownCallerType (name : String)
  | missingDevice
  | sessionNotFound
  | corruptRecord (fault : Json.ReadError)
  | tokenSuperseded
  | deviceMismatch
  | inactive
  | store (error : StoreError)
  deriving DecidableEq

namespace ResolveError

/-- The name of the kind of a resolve error. -/
def kind : ResolveError → String
  | .cipher _ => "Crypto"
  | .unknownCallerType _ => "UnknownCallerType"
  | .missingDevice => "MissingDevice"
  | .sessionNotFound => "SessionNotFound"
  | .corruptRecord _ => "CorruptRecord"
  | .tokenSuperseded => "TokenSuperseded"
  | .deviceMismatch => "DeviceMismatch"
  | .inactive => "Inactive"
  | .store _ => "Store"

/-- The wording of a resolve error. -/
def message : ResolveError → String
  | .cipher error => "Token could not be opened: " ++ error.message
  | .unknownCallerType name => "Unknown caller type " ++ name
  | .missingDevice => "Device-bound token carries no device id"
  | .sessionNotFound => "No session for the token's binding key"
  | .corruptRecord fault => "Stored session record is unreadable: " ++ fault.message
  | .tokenSuperseded => "Token is no longer the current token for its session"
  | .deviceMismatch => "Device id does not match the session's device"
  | .inactive => "Identity is disabled, locked or expired"
  | .store error => error.message

/-- Whether the caller counts as anonymous. -/
def isUnauthenticated : ResolveError → Bool
  | .store _ => false
  | _ => true

end ResolveError

/-- Why an operation on sessions failed. -/
inductive IdentityError
  | storeUnavailable (detail : String)
  | unknownCallerType (name : String)
  | bindingMismatch (callerType bindingKey : String)
  | notDeviceBound (callerType : String)
  | deviceSessionConflict (device : String)
  | noDeviceSession (device : String)
  | cipher (error : CipherError)
  | serialization (detail : String)
  deriving DecidableEq

namespace IdentityError

/-- The name of the kind of an identity error. -/
def kind : IdentityError → String
  | .storeUnavailable _ => "StoreUnavailable"
  | .unknownCallerType _ => "UnknownCallerType"
  | .bindingMismatch .. => "BindingMismatch"
  | .notDeviceBound _ => "NotDeviceBound"
  | .deviceSessionConflict _ => "DeviceSessionConflict"
  | .noDeviceSession _ => "NoDeviceSession"
  | .cipher _ => "Crypto"
  | .serialization _ => "Serialization"

/-- The wording of an identity error. -/
def message : IdentityError → String
  | .storeUnavailable detail => "Session store unavailable: " ++ detail
  | .unknownCallerType name => "Unknown caller type " ++ name
  | .bindingMismatch callerType bindingKey =>
    s!"Binding key {bindingKey} does not match the context for caller type {callerType}"
  | .notDeviceBound callerType => s!"Caller type {callerType} is not device-bound"
  | .deviceSessionConflict device =>
    s!"Device {device} already has a session owned by another principal"
  | .noDeviceSession device =>
    s!"No session exists for device {device} and the request is not a login"
  | .cipher error => "Token minting failed: " ++ error.message
  | .serialization detail => "Session record serialization failed: " ++ detail

/-- The failure of an operation whose store call failed. -/
def ofStore : StoreError → IdentityError
  | .unavailable detail => .storeUnavailable detail
  | .serialization detail => .serialization detail

/-- Whether the store did not answer. -/
def isStoreUnavailable : IdentityError → Bool
  | .storeUnavailable _ => true
  | _ => false

end IdentityError
end Turnstile.Session
