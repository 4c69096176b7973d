import Turnstile.Bytes.Hex
import Turnstile.Crypto.Sha1
import Turnstile.Redis.Reply

/-!
# Scripts

What has to happen at once on the server is done by a script. A script is called by the
digest of its text, so that the text travels only when the server does not know it.
-/

namespace Turnstile.Redis

/-- A call of a script. -/
structure ScriptCall where
  text : String
  keys : List String
  arguments : List String
  deriving DecidableEq, Repr

namespace ScriptCall

/-- The digest by which the server knows a script. -/
def digest (call : ScriptCall) : String := Hex.encode (Sha1.digest (Bytes.ofText call.text))

/-- Calls the script. -/
def evaluate (call : ScriptCall) : Command :=
  .ofTexts (["EVALSHA", call.digest, toString call.keys.length] ++ call.keys ++ call.arguments)

/-- Makes the script known to the server. -/
def load (call : ScriptCall) : Command := .ofTexts ["SCRIPT", "LOAD", call.text]

end ScriptCall

/-- Deletes a lock that its owner still holds. Keys: lock. Arguments: owner. -/
def releaseScript : String := "
if redis.call('GET', KEYS[1]) == ARGV[1] then
  return redis.call('DEL', KEYS[1])
end
return 0
"

/-- Lets a fair waiter in if the lock is free and the waiter first in line, and keeps its place
otherwise. Waiters that have not been heard of for too long lose theirs. Keys: lock, waiter list,
waiter heartbeats. Arguments: owner, lease in milliseconds or zero for none, milliseconds after
which a waiter counts as gone. -/
def fairAcquireScript : String := "
local clock = redis.call('TIME')
local now = tonumber(clock[1]) * 1000 + math.floor(tonumber(clock[2]) / 1000)
while true do
  local head = redis.call('LINDEX', KEYS[2], 0)
  if not head then break end
  local seen = redis.call('ZSCORE', KEYS[3], head)
  if seen and tonumber(seen) >= now then break end
  redis.call('LPOP', KEYS[2])
  redis.call('ZREM', KEYS[3], head)
end
if redis.call('EXISTS', KEYS[1]) == 0 then
  local head = redis.call('LINDEX', KEYS[2], 0)
  if (not head) or head == ARGV[1] then
    if head then redis.call('LPOP', KEYS[2]) end
    redis.call('ZREM', KEYS[3], ARGV[1])
    if tonumber(ARGV[2]) > 0 then
      redis.call('SET', KEYS[1], ARGV[1], 'PX', ARGV[2])
    else
      redis.call('SET', KEYS[1], ARGV[1])
    end
    return 1
  end
end
if not redis.call('ZSCORE', KEYS[3], ARGV[1]) then
  redis.call('RPUSH', KEYS[2], ARGV[1])
end
redis.call('ZADD', KEYS[3], now + tonumber(ARGV[3]), ARGV[1])
redis.call('PEXPIRE', KEYS[2], tonumber(ARGV[3]) * 2)
redis.call('PEXPIRE', KEYS[3], tonumber(ARGV[3]) * 2)
return 0
"

/-- Takes a waiter out of line. Keys: waiter list, waiter heartbeats. Arguments: owner. -/
def fairCancelScript : String := "
redis.call('LREM', KEYS[1], 0, ARGV[1])
redis.call('ZREM', KEYS[2], ARGV[1])
return 1
"

end Turnstile.Redis
