import Turnstile.Lock.Slot

/-!
# The waiting room

Acquisitions that wait for a lock stay in a room from which each looks at the slot from
time to time: when something has changed, or when its own wake-up comes. A look either
lets it in, or sends it back to wait, or finds that its time is over; then it leaves.
Every function here is one indivisible step; what happens between steps, and in which
order the waiters look, is left open.
-/

namespace Turnstile.Lock

/-- What an acquisition waits for. -/
structure Waiter where
  token : LockToken
  kind : Kind
  lease : Option Duration
  deadline : Instant
  /-- When it looks again on its own. -/
  wakeAt : Instant
  /-- Whether something has changed since it last looked. -/
  notified : Bool
  /-- Whether its time is over and it only has to leave. -/
  leaving : Bool
  deriving DecidableEq, Repr

/-- Whether a waiter has reason to look. -/
def Waiter.isDue (waiter : Waiter) (now : Instant) : Bool :=
  waiter.notified || waiter.leaving || waiter.wakeAt ≤ now

/-- The slots and those who wait. -/
structure Room where
  slots : Slots
  waiters : List Waiter

/-- What comes of a look. -/
inductive Look
  | admitted
  | waits
  | givesUp
  /-- The waiter is let in, but the lock cannot be taken for its lease. -/
  | crashes (crash : Crash)
  /-- The waiter is not in the room. -/
  | gone
  deriving DecidableEq, Repr

namespace Room

/-- A room with nothing held and nobody in it. -/
def empty : Room := ⟨∅, []⟩

variable (room : Room) (now : Instant)

/-- The waiter of an owner name. -/
def waiter? (owner : Owner) : Option Waiter := room.waiters.find? (·.token.owner = owner)

/-- The waiters without one. -/
def without (owner : Owner) : List Waiter := room.waiters.filter (·.token.owner != owner)

/-- Tells everyone that something has changed. -/
def notify : Room := { room with waiters := room.waiters.map ({ · with notified := true }) }

/-- Takes a lock without waiting. Nobody is told. -/
def tryAcquire (token : LockToken) (lease : Option Duration) : Except Crash Bool × Room :=
  let (answer, slots) := room.slots.tryAcquire now token lease
  (answer, { room with slots })

/-- Frees a lock that the token still owns, and tells everyone if it did. -/
def release (token : LockToken) : Bool × Room :=
  let (released, slots) := room.slots.release now token
  (released, if released then notify { room with slots } else { room with slots })

/-- Frees a lock whoever owns it, and tells everyone in any case. -/
def forceRelease (key : String) : Bool × Room :=
  let (released, slots) := room.slots.forceRelease key
  (released, notify { room with slots })

/-- Whether a lock has a holder. -/
def isHeld (key : String) : Bool × Room :=
  let (held, slots) := room.slots.isHeld now key
  (held, { room with slots })

/-- Lets a waiter into the room, who is to look at once, unless the clock cannot represent its
deadline. A fair one enters the queue. -/
def enter (token : LockToken) (kind : Kind) (wait : Duration) (lease : Option Duration) :
    Except Crash Room := do
  let deadline ← now.after wait
  let slots := match kind with
    | .exclusive => room.slots
    | .fair => room.slots.enqueue token
  return ⟨slots, room.waiters ++
    [{ token, kind, lease, deadline, wakeAt := now, notified := false, leaving := false }]⟩

/-- Lets a waiter look at its slot, unless it has given up already. One that crashes has left the
room, and tells nobody. -/
def look (owner : Owner) : Look × Room :=
  match room.waiter? owner with
  | none => (.gone, room)
  | some waiter =>
    if waiter.leaving then (.givesUp, room) else
    let key := waiter.token.key
    let slot := (room.slots.slotOf key).expireHolder now
    let others := room.without owner
    if slot.admits waiter.kind owner then
      let slot := slot.callUp waiter.kind
      match slot.take now owner waiter.lease with
      | .ok taken => (.admitted, ⟨room.slots.keep key taken, others⟩)
      | .error crash => (.crashes crash, ⟨room.slots.keep key slot, others⟩)
    else
      let slots := room.slots.keep key slot
      if waiter.deadline ≤ now then
        (.givesUp, ⟨slots, others ++ [{ waiter with leaving := true }]⟩)
      else
        let wakeAt := slot.wakeAt waiter.deadline
        (.waits, ⟨slots, others ++ [{ waiter with wakeAt, notified := false }]⟩)

/-- Takes a waiter out of the room, because its time is over or because it is called off. A fair
one gives up its place in the queue, of which everyone is told. -/
def leave (owner : Owner) : Room :=
  match room.waiter? owner with
  | none => room
  | some waiter =>
    let others := room.without owner
    match waiter.kind with
    | .exclusive => { room with waiters := others }
    | .fair => notify ⟨room.slots.dequeue waiter.token, others⟩

end Room
end Turnstile.Lock
