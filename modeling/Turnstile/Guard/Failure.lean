import Turnstile.Key.Argument
import Turnstile.Lock.Kind
import Turnstile.Time

/-!
# Failures of guarded calls

A guarded call may end without the outcome of its operation. Only a call that has waited
too long is worth repeating as it is.
-/

namespace Turnstile.Guard

/-- Why a guarded call did not yield a value. Operations have failures of their own. -/
inductive GuardError (ε : Type)
  | idempotentConflict (key : String)
  | lockTimeout (key : String) (waited : Duration)
  | noKey (error : Key.KeyError)
  | lock (error : Lock.LockError)
  | operation (error : ε)
  deriving DecidableEq

namespace GuardError

variable {ε : Type}

/-- The name of the kind of a failure. -/
def kind : GuardError ε → String
  | .idempotentConflict _ => "IdempotentConflict"
  | .lockTimeout .. => "LockTimeout"
  | .noKey _ => "Key"
  | .lock _ => "Lock"
  | .operation _ => "Operation"

/-- The wording of a failure, given that of the operation's failures. -/
def message (wording : ε → String) : GuardError ε → String
  | .idempotentConflict key => s!"Duplicate request rejected: {key} is already in progress"
  | .lockTimeout key waited => s!"Timed out after {waited.describe} waiting for lock {key}"
  | .noKey error => "Could not derive lock key: " ++ error.message
  | .lock error => error.message
  | .operation error => "Guarded operation failed: " ++ wording error

/-- Whether the call is worth repeating as it is. -/
def isRetryable : GuardError ε → Bool
  | .lockTimeout .. => true
  | _ => false

/-- The operation's own failure. -/
def operationError? : GuardError ε → Option ε
  | .operation error => some error
  | _ => none

end GuardError
end Turnstile.Guard
