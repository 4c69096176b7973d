import Turnstile.Key.Operation
import Turnstile.Settings.Basic

/-!
# Guarded operations

An operation is registered once, with the way in which its lock is taken: either a call
is rejected at once while another one is under way, or it waits for its turn. What the
registration leaves open is filled in from defaults.
-/

namespace Turnstile.Guard

open Lock (Kind)

/-- What a call does when its lock is held. -/
inductive Mode
  /-- It is rejected at once. -/
  | idempotent
  /-- It waits. -/
  | concurrent
  deriving DecidableEq, Repr

/-- The name of a mode. -/
def Mode.name : Mode → String
  | .idempotent => "Idempotent"
  | .concurrent => "Concurrent"

/-- The registration of an operation. -/
structure Spec where
  operation : String
  mode : Mode
  kind : Option Kind
  expression : Option Key.Expression
  wait : Option Duration
  /-- If given, the lease of the lock; no lease at all may be given, too. -/
  lease : Option (Option Duration)
  deriving DecidableEq, Repr

namespace Spec

/-- An operation whose calls are rejected while its lock is held. -/
def idempotent (operation : String) : Spec :=
  { operation, mode := .idempotent, kind := none, expression := none, wait := none, lease := none }

/-- An operation whose calls wait, in the default kind. -/
def blocking (operation : String) : Spec := { idempotent operation with mode := .concurrent }

/-- An operation whose calls wait, in the given kind. -/
def concurrent (operation : String) (kind : Kind) : Spec := { blocking operation with kind }

/-- The operation with a key expression, which is read here. -/
def withExpression (spec : Spec) (source : String) : Except Key.KeyError Spec := do
  return { spec with expression := ← Key.Expression.parse source }

/-- The operation with a wait of its own. -/
def withWait (spec : Spec) (wait : Duration) : Spec := { spec with wait }

/-- The operation with a lease of its own. -/
def withLease (spec : Spec) (lease : Duration) : Spec := { spec with lease := some (some lease) }

/-- The operation with locks that are held until they are released. -/
def withoutLease (spec : Spec) : Spec := { spec with lease := some none }

end Spec

/-- What holds where a registration says nothing. -/
structure Defaults where
  wait : Duration
  lease : Option Duration
  kind : Kind
  deriving DecidableEq, Repr

/-- The defaults of the settings of locks. -/
def Defaults.ofSettings (settings : LockSettings) : Defaults :=
  ⟨settings.wait, settings.lease?, settings.kind⟩

/-- How a lock is to be taken. -/
inductive Attempt
  | once
  | waiting (kind : Kind) (wait : Duration)
  deriving DecidableEq, Repr

/-- What a call needs to know of its lock. -/
structure Plan where
  key : String
  lease : Option Duration
  attempt : Attempt
  deriving DecidableEq, Repr

/-- Guards calls by locks. -/
structure Interceptor where
  deriver : Key.Deriver
  defaults : Defaults
  deriving DecidableEq, Repr

namespace Interceptor

/-- The interceptor of the settings of locks. -/
def ofSettings (settings : LockSettings) : Interceptor :=
  ⟨settings.deriver, .ofSettings settings⟩

variable (interceptor : Interceptor)

/-- The key of a call. -/
def deriveKey (spec : Spec) (arguments : List Key.Argument) : Except Key.KeyError String :=
  interceptor.deriver.operationKey ⟨spec.operation, arguments⟩ spec.expression

/-- How the lock of a call is to be taken. -/
def plan (spec : Spec) (arguments : List Key.Argument) : Except Key.KeyError Plan := do
  let key ← interceptor.deriveKey spec arguments
  let attempt := match spec.mode with
    | .idempotent => .once
    | .concurrent => .waiting (spec.kind.getD interceptor.defaults.kind)
        (spec.wait.getD interceptor.defaults.wait)
  return { key, lease := spec.lease.getD interceptor.defaults.lease, attempt }

end Interceptor
end Turnstile.Guard
