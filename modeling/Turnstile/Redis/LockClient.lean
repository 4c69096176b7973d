import Turnstile.Lock.Slot
import Turnstile.Redis.SessionStore

/-!
# Locks on a Redis server

A lock is an entry that names its owner. An exclusive lock is taken by a conditional
write; for a fair one the server keeps a list of waiters and their heartbeats beside it.
The lock's key stands in braces inside all three names, so that a cluster keeps them in
one place.
-/

namespace Turnstile.Redis

open Lock (LockToken LockError Kind)

/-- How locks are kept on the server, and how often a waiter asks. -/
structure LockClient where
  keyPrefix : String
  pollInterval : Duration
  /-- How long a fair waiter keeps its place without being heard of. -/
  staleAfter : Duration
  deriving DecidableEq, Repr

namespace LockClient

/-- A client that asks every fifty milliseconds. -/
def ofPrefix (keyPrefix : String) : LockClient :=
  ⟨keyPrefix, .ofMillis 50, .ofSecs 2⟩

/-- The client with another interval. A waiter survives twenty missed turns at least. -/
def withPollInterval (client : LockClient) (interval : Duration) : LockClient :=
  { client with pollInterval := interval, staleAfter := max client.staleAfter (20 * interval) }

variable (client : LockClient)

/-- The name of a lock's entry. -/
def lockKey (key : String) : String := client.keyPrefix ++ "\x7b" ++ key ++ "\x7d"

/-- The name of the list of a lock's waiters. -/
def queueKey (key : String) : String := client.lockKey key ++ ":queue"

/-- The name of the heartbeats of a lock's waiters. -/
def waitersKey (key : String) : String := client.lockKey key ++ ":waiters"

/-- Takes a lock unless it is held. -/
def setIfAbsent (token : LockToken) (lease : Option Duration) : Conversation Bool :=
  let expiry := match lease with
    | some lease => ["PX", toString (wireMillis lease)]
    | none => []
  .ask (.ofTexts (["SET", client.lockKey token.key, token.owner, "NX"] ++ expiry))
    fun reply => do return (← reply.text?).isSome

/-- The script call by which a fair waiter asks for a lock. -/
def fairAttempt (token : LockToken) (lease : Option Duration) : ScriptCall where
  text := fairAcquireScript
  keys := [client.lockKey token.key, client.queueKey token.key, client.waitersKey token.key]
  arguments := [token.owner, toString ((lease.map wireMillis).getD 0),
    toString (client.staleAfter.toMillis % UInt64.size)]

/-- The script call by which a fair waiter gives up its place. -/
def fairCancel (token : LockToken) : ScriptCall where
  text := fairCancelScript
  keys := [client.queueKey token.key, client.waitersKey token.key]
  arguments := [token.owner]

/-- One attempt to take a lock, of either kind. -/
def attempt (kind : Kind) (token : LockToken) (lease : Option Duration) : Conversation Bool :=
  match kind with
  | .exclusive => client.setIfAbsent token lease
  | .fair => .call (client.fairAttempt token lease) fun reply => do return (← reply.integer?) == 1

/-- Gives up a fair waiter's place. -/
def cancel (token : LockToken) : Conversation Unit :=
  .call (client.fairCancel token) fun reply => do
    let _ ← reply.integer?
    return ()

/-- Frees a lock that the token still owns, and tells whether it did. -/
def release (token : LockToken) : Conversation Bool :=
  let script := { text := releaseScript, keys := [client.lockKey token.key],
                  arguments := [token.owner] }
  .call script fun reply => do return decide (0 < (← reply.integer?))

/-- Frees a lock whoever owns it, and tells whether it was held. -/
def forceRelease (key : String) : Conversation Bool :=
  .ask (.ofTexts ["DEL", client.lockKey key]) fun reply => do
    return decide (0 < (← reply.natural?))

/-- The lock error of a failed conversation. -/
def failure (error : RedisError) : LockError := .unavailable error.message

end LockClient
end Turnstile.Redis
