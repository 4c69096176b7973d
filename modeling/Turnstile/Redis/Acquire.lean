import Turnstile.LogLine
import Turnstile.Redis.LockClient

/-!
# Waiting for a lock on a Redis server

The wait opens a connection and then makes attempts, with pauses in between that end no
later than the deadline; the last attempt is made at the deadline or after it. A fair
waiter that gives up takes itself out of line; if it fails or is dropped instead, this is
left to a task in the background. The wait is described by its phases: what happens takes
it from one to the next, and it answers with effects.
-/

namespace Turnstile.Redis

open Lock (LockToken LockError Kind)

/-- What a wait is for. -/
structure Acquire where
  client : LockClient
  token : LockToken
  kind : Kind
  lease : Option Duration
  deadline : Instant
  deriving DecidableEq, Repr

/-- How a wait ended. -/
inductive AcquireEnd
  | acquired (token : LockToken)
  | timedOut
  | failed (error : LockError)
  | dropped
  deriving DecidableEq, Repr

/-- How far a wait has come. -/
inductive AcquirePhase
  | connecting
  /-- An attempt is under way: what is done with the next reply. -/
  | attempting (next : Except RedisError Reply → Conversation Bool)
  | pausing
  /-- A fair waiter is taking itself out of line. -/
  | cancelling (next : Except RedisError Reply → Conversation Unit)
  | over (ending : AcquireEnd)

/-- What a wait wants done. -/
inductive AcquireEffect
  | connect
  | send (command : Command)
  | pauseUntil (instant : Instant)
  /-- A background task is to take the waiter out of line over a connection of its own. -/
  | cancelInBackground (token : LockToken)
  | log (line : LogLine)
  deriving DecidableEq

/-- What happens to a wait. -/
inductive AcquireEvent
  | connected
  | refused (error : RedisError)
  | replied (reply : Except RedisError Reply)
  | resumed
  | dropped

namespace Acquire

variable (acquire : Acquire)

/-- What is left to the background when a waiter does not get the lock and has not given up its
place itself. -/
def abandonment : List AcquireEffect :=
  match acquire.kind with
  | .exclusive => []
  | .fair => [.cancelInBackground acquire.token]

/-- The end of a wait that is given up. -/
def giveUp : AcquirePhase × List AcquireEffect :=
  (.over .timedOut,
    [.log ⟨.debug, s!"Gave up waiting for {acquire.kind.name} lock {acquire.token.key}"⟩])

/-- The end of a wait that fails after its first attempt has begun. -/
def fail (error : RedisError) : AcquirePhase × List AcquireEffect :=
  (.over (.failed (LockClient.failure error)), acquire.abandonment)

/-- Goes on with a cancellation. -/
def proceedCancel : Conversation Unit → AcquirePhase × List AcquireEffect
  | .send command next => (.cancelling next, [.send command])
  | .done (.ok ()) => acquire.giveUp
  | .done (.error e) => acquire.fail e

/-- Goes on with an attempt. After one that was in vain, the wait pauses unless its deadline has
come. -/
def proceedAttempt (now : Instant) : Conversation Bool → AcquirePhase × List AcquireEffect
  | .send command next => (.attempting next, [.send command])
  | .done (.ok true) => (.over (.acquired acquire.token), [])
  | .done (.ok false) =>
    if now < acquire.deadline then
      (.pausing, [.pauseUntil (min (now + acquire.client.pollInterval) acquire.deadline)])
    else
      match acquire.kind with
      | .exclusive => acquire.giveUp
      | .fair => acquire.proceedCancel (acquire.client.cancel acquire.token)
  | .done (.error e) => acquire.fail e

/-- Makes an attempt. -/
def attempt (now : Instant) : AcquirePhase × List AcquireEffect :=
  acquire.proceedAttempt now
    (acquire.client.attempt acquire.kind acquire.token acquire.lease)

/-- How a wait begins. -/
def start : AcquirePhase × List AcquireEffect := (.connecting, [.connect])

/-- What becomes of a wait when something happens to it. What does not concern its phase leaves it
as it is. -/
def react (now : Instant) : AcquirePhase → AcquireEvent → AcquirePhase × List AcquireEffect
  | .connecting, .connected => acquire.attempt now
  | .connecting, .refused e => (.over (.failed (LockClient.failure e)), [])
  | .connecting, .dropped => (.over .dropped, [])
  | .attempting next, .replied reply => acquire.proceedAttempt now (next reply)
  | .pausing, .resumed => acquire.attempt now
  | .cancelling next, .replied reply => acquire.proceedCancel (next reply)
  | .attempting _, .dropped | .pausing, .dropped | .cancelling _, .dropped =>
    (.over .dropped, acquire.abandonment)
  | phase, _ => (phase, [])

end Acquire
end Turnstile.Redis
