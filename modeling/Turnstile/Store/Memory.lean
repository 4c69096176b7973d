import Turnstile.Store.Call
import Turnstile.Table

/-!
# A store in memory

Entries stay in their table when their time is over, but no call answers with one: they
are removed when a call comes across them. A read does so in a second phase, in which
the entry may have been written anew; it is judged by the instant of the first phase, at
which a later entry is still live.
-/

namespace Turnstile.Store

/-- A value with the instant at which it lapses, if it does. -/
structure Entry where
  value : Bytes
  expiresAt : Option Instant
  deriving DecidableEq

/-- Whether an entry has not lapsed yet. At the very instant of its expiry it has. -/
def Entry.isLive (entry : Entry) (now : Instant) : Bool := entry.expiresAt.all (now < ·)

/-- What the first phase of a read finds. -/
inductive Reading
  | found (value : Bytes)
  | lapsed
  | absent
  deriving DecidableEq

/-- The value that a read yields. -/
def Reading.value? : Reading → Option Bytes
  | .found value => some value
  | _ => none

/-- The entries of the store, lapsed ones among them. -/
structure Memory where
  entries : Table Entry
  deriving DecidableEq

namespace Memory

/-- A store without entries. -/
def empty : Memory := ⟨∅⟩

variable (memory : Memory) (now : Instant)

/-- The first phase of a read: changes nothing. -/
def read (key : String) : Reading :=
  match memory.entries.get? key with
  | some entry => if entry.isLive now then .found entry.value else .lapsed
  | none => .absent

/-- The second phase of a read that found a lapsed entry: removes the entry if it has lapsed at
the instant of the first phase. -/
def purge (key : String) : Memory :=
  match memory.entries.get? key with
  | some entry => if entry.isLive now then memory else ⟨memory.entries.erase key⟩
  | none => memory

/-- Both phases of a read, one after the other. -/
def get (key : String) : Option Bytes × Memory :=
  match memory.read now key with
  | .lapsed => (none, memory.purge now key)
  | reading => (reading.value?, memory)

/-- Writes a value. -/
def set (key : String) (value : Bytes) (ttl : Option Duration) : Except Crash Memory := do
  let expiresAt ← ttl.mapM now.after
  return ⟨memory.entries.insert key ⟨value, expiresAt⟩⟩

/-- Removes an entry, and tells whether it was live. -/
def delete (key : String) : Bool × Memory :=
  ((memory.entries.get? key).any (·.isLive now), ⟨memory.entries.erase key⟩)

/-- Begins the time of a live entry anew. A lapsed one is removed. -/
def expire (key : String) (ttl : Duration) : Except Crash (Bool × Memory) :=
  match memory.entries.get? key with
  | some entry =>
    if entry.isLive now then do
      let expiresAt ← now.after ttl
      return (true, ⟨memory.entries.insert key { entry with expiresAt := some expiresAt }⟩)
    else .ok (false, ⟨memory.entries.erase key⟩)
  | none => .ok (false, memory)

/-- The number of live entries. -/
def liveCount : Nat := (memory.entries.filter fun _ entry => entry.isLive now).size

/-- Serves a call. -/
def serve : (call : Call) → Except Crash (call.Answer × Memory)
  | .get key => .ok (memory.get now key)
  | .set key value ttl => do return ((), ← memory.set now key value ttl)
  | .delete key => .ok (memory.delete now key)
  | .expire key ttl => memory.expire now key ttl

end Memory
end Turnstile.Store
