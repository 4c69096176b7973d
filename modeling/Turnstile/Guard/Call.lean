import Turnstile.Guard.Failure
import Turnstile.Guard.Spec
import Turnstile.Lock.Slot
import Turnstile.LogLine

/-!
# The course of a guarded call

A call derives its key, takes the lock, runs its operation, frees the lock, and then
yields the operation's outcome. It is described by its phases: what happens to it takes
it from one phase to the next, and it answers with effects, which its surroundings carry
out. A call that is dropped, or whose operation panics, leaves a release behind that goes
on by itself.
-/

namespace Turnstile.Guard

open Lock (LockToken LockError Kind)

/-- What a lock goes through during a call. -/
inductive LockPhase
  | idle
  | acquiring
  | held
  | releasing
  | rejected
  | timedOut
  deriving DecidableEq, Repr

/-- The name of a phase. -/
def LockPhase.name : LockPhase → String
  | .idle => "idle"
  | .acquiring => "acquiring"
  | .held => "held"
  | .releasing => "releasing"
  | .rejected => "rejected"
  | .timedOut => "timed-out"

/-- The log line of a change of phase. -/
def transition (key : String) (before after : LockPhase) : LogLine :=
  ⟨.debug, s!"Lock {key}: {before.name} -> {after.name}"⟩

/-- What a call wants done. -/
inductive Effect
  | log (line : LogLine)
  /-- The lock client is to take a lock without waiting. -/
  | tryAcquire (key : String) (lease : Option Duration)
  /-- The lock client is to wait for a lock. -/
  | acquire (key : String) (kind : Kind) (wait : Duration) (lease : Option Duration)
  /-- The pending acquisition is dropped. -/
  | abandonAcquire
  /-- The operation begins. -/
  | startOperation
  /-- The operation is dropped. -/
  | dropOperation
  /-- The lock client is to free a lock, and the call waits for it. -/
  | release (token : LockToken)
  /-- The pending release is dropped. -/
  | abandonRelease
  /-- A lock is to be freed by a task of its own. -/
  | detachRelease (token : LockToken)
  deriving DecidableEq, Repr

/-- What happens to a call. -/
inductive Event (τ ε : Type)
  /-- The lock client has answered a request for a lock. -/
  | acquired (answer : Except LockError (Option LockToken))
  /-- The lock client has crashed over a request for a lock. -/
  | crashed
  /-- The operation has ended. -/
  | ended (outcome : Except ε τ)
  | panicked
  /-- The lock client has answered the release. -/
  | released (answer : Except LockError Bool)
  /-- Nobody waits for the call any more. -/
  | dropped

/-- How a call came to its end. -/
inductive CallEnd (τ ε : Type)
  | returned (result : Except (GuardError ε) τ)
  | panicked
  | dropped

/-- How far a call has come. -/
inductive CallPhase (τ ε : Type)
  | acquiring (plan : Plan)
  | running (token : LockToken)
  | releasing (token : LockToken) (outcome : Except ε τ)
  | over (ending : CallEnd τ ε)

/-! ## Taking a lock -/

namespace Plan

variable (plan : Plan)

/-- What is asked of the lock client. -/
def request : Effect :=
  match plan.attempt with
  | .once => .tryAcquire plan.key plan.lease
  | .waiting kind wait => .acquire plan.key kind wait plan.lease

/-- What a call does first. -/
def opening : List Effect := [.log (transition plan.key .idle .acquiring), plan.request]

/-- What the lock client's answer means, and what is logged of it. -/
def conclude {ε : Type} (answer : Except LockError (Option LockToken)) :
    Except (GuardError ε) LockToken × List LogLine :=
  match answer with
  | .error e =>
    (.error (.lock e), [⟨.error, s!"Lock server failed acquiring {plan.key}: {e.message}"⟩,
      transition plan.key .acquiring .idle])
  | .ok (some token) => (.ok token, [transition plan.key .acquiring .held])
  | .ok none =>
    match plan.attempt with
    | .once =>
      (.error (.idempotentConflict plan.key), [transition plan.key .acquiring .rejected])
    | .waiting _ wait =>
      (.error (.lockTimeout plan.key wait), [transition plan.key .acquiring .timedOut])

end Plan

/-! ## Freeing a lock -/

namespace Release

/-- What is done to free a lock. -/
def opening (token : LockToken) : List Effect :=
  [.log (transition token.key .held .releasing), .release token]

/-- Whether the lock was still held, and what is logged of the lock client's answer. -/
def conclude (token : LockToken) (answer : Except LockError Bool) : Bool × List LogLine :=
  let closing := [transition token.key .releasing .idle]
  match answer with
  | .ok true => (true, closing)
  | .ok false =>
    (false,
      ⟨.warn, s!"Lock {token.key} was no longer held at release; lease too short?"⟩ :: closing)
  | .error e => (false, ⟨.warn, s!"Failed to release lock {token.key}: {e.message}"⟩ :: closing)

/-- What is logged when a lock is given up where no task can be started. -/
def strandedLine (token : LockToken) : LogLine :=
  ⟨.warn, s!"No runtime to release lock {token.key}; it stays held until its lease expires"⟩

end Release

/-! ## Calls -/

namespace CallPhase

variable {τ ε : Type}

/-- How a call begins. -/
def start (plan : Except Key.KeyError Plan) : CallPhase τ ε × List Effect :=
  match plan with
  | .ok plan => (.acquiring plan, plan.opening)
  | .error e => (.over (.returned (.error (.noKey e))), [])

/-- What becomes of a call when something happens to it. What does not concern its phase leaves it
as it is. -/
def react : CallPhase τ ε → Event τ ε → CallPhase τ ε × List Effect
  | .acquiring plan, .acquired answer =>
    match plan.conclude answer with
    | (.ok token, lines) => (.running token, lines.map .log ++ [.startOperation])
    | (.error e, lines) => (.over (.returned (.error e)), lines.map .log)
  | .acquiring _, .crashed => (.over .panicked, [])
  | .acquiring _, .dropped => (.over .dropped, [.abandonAcquire])
  | .running token, .ended outcome => (.releasing token outcome, Release.opening token)
  | .running token, .panicked => (.over .panicked, [.detachRelease token])
  | .running token, .dropped => (.over .dropped, [.dropOperation, .detachRelease token])
  | .releasing token outcome, .released answer =>
    (.over (.returned (outcome.mapError .operation)), (Release.conclude token answer).2.map .log)
  | .releasing token _, .dropped => (.over .dropped, [.abandonRelease, .detachRelease token])
  | phase, _ => (phase, [])

end CallPhase
end Turnstile.Guard
