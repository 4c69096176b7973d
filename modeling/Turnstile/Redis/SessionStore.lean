import Turnstile.Redis.Conversation
import Turnstile.Store.Call

/-!
# Sessions on a Redis server

Each call to the session store is one command. Times to live are sent in whole
milliseconds, at least one, since the server refuses a time of zero.
-/

namespace Turnstile.Redis

open Store (Call StoreError)

/-- A span in whole milliseconds of 64 bits, at least one. -/
def wireMillis (span : Duration) : Nat := max 1 (span.toMillis % UInt64.size)

/-- Spans from one millisecond up to what 64 bits hold are sent as they are. -/
theorem wireMillis_eq {span : Duration} (h : 1 ≤ span.toMillis)
    (hlt : span.toMillis < UInt64.size) : wireMillis span = span.toMillis := by
  rw [wireMillis, Nat.mod_eq_of_lt hlt, Nat.max_eq_right h]

namespace SessionStore

/-- The command of a call. The new time of an entry is sent as a signed number. -/
def command : Call → Command
  | .get key => .ofTexts ["GET", key]
  | .set key value (some ttl) =>
    [Bytes.ofText "PSETEX", Bytes.ofText key, Bytes.ofText (toString (wireMillis ttl)), value]
  | .set key value none => [Bytes.ofText "SET", Bytes.ofText key, value]
  | .delete key => .ofTexts ["DEL", key]
  | .expire key ttl => .ofTexts ["PEXPIRE", key, toString (Int.bmod (wireMillis ttl) UInt64.size)]

/-- What a reply answers to a call. -/
def answer : (call : Call) → Reply → Except RedisError call.Answer
  | .get _, reply => reply.octets?
  | .set .., reply => reply.done
  | .delete _, reply => do return decide (0 < (← reply.natural?))
  | .expire .., reply => reply.flag?

/-- A call as a conversation. -/
def converse (call : Call) : Conversation call.Answer := .ask (command call) (answer call)

/-- The store error of a failed conversation. -/
def failure (error : RedisError) : StoreError := .unavailable error.message

end SessionStore
end Turnstile.Redis
