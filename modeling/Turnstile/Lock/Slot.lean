import Turnstile.Lock.Kind
import Turnstile.Table
import Turnstile.Time

/-!
# Slots

What is known of one lock: who holds it and until when, and which fair waiters queue for
it. Every acquisition has an owner name of its own, so that a holder whose lease has
lapsed cannot free a lock that someone else has taken since.
-/

namespace Turnstile.Lock

/-- Names one acquisition. -/
abbrev Owner := String

/-- Proof of an acquisition. -/
structure LockToken where
  key : String
  owner : Owner
  deriving DecidableEq, Repr

/-- Who holds a lock, and when the lease lapses, if it does. -/
structure Holder where
  owner : Owner
  expiresAt : Option Instant
  deriving DecidableEq, Repr

/-- Whether a holder's lease has lapsed. At the very instant of its expiry it has. -/
def Holder.hasLapsed (holder : Holder) (now : Instant) : Bool := holder.expiresAt.any (· ≤ now)

/-- The holder of a lock and the fair waiters in order of arrival. -/
structure Slot where
  holder : Option Holder
  queue : List Owner
  deriving DecidableEq, Repr

namespace Slot

/-- A slot without holder and queue. -/
def idle : Slot := ⟨none, []⟩

variable (slot : Slot) (now : Instant)

/-- Whether a slot has neither holder nor queue. -/
def isIdle : Bool := slot.holder.isNone && slot.queue.isEmpty

/-- The slot without a holder whose lease has lapsed. -/
def expireHolder : Slot := { slot with holder := slot.holder.filter fun h => !h.hasLapsed now }

/-- Whether a waiter may take the lock: nobody holds it, and a fair waiter is first in line. -/
def admits (kind : Kind) (owner : Owner) : Bool :=
  slot.holder.isNone &&
    match kind with
    | .exclusive => true
    | .fair => slot.queue.head? == some owner

/-- The slot that a waiter is let in from: a fair one leaves the queue. -/
def callUp (kind : Kind) : Slot :=
  match kind with
  | .exclusive => slot
  | .fair => { slot with queue := slot.queue.tail }

/-- The slot held by an owner from now on, unless the clock cannot represent the end of the
lease. -/
def take (owner : Owner) (lease : Option Duration) : Except Crash Slot := do
  let expiresAt ← lease.mapM now.after
  return { slot with holder := some ⟨owner, expiresAt⟩ }

/-- The slot with one more waiter at the end of the queue. -/
def enqueue (owner : Owner) : Slot := { slot with queue := slot.queue ++ [owner] }

/-- The slot without a waiter. -/
def dequeue (owner : Owner) : Slot := { slot with queue := slot.queue.filter (· != owner) }

/-- When a waiter looks again: at its deadline, or before that when the lease lapses. -/
def wakeAt (deadline : Instant) : Instant :=
  match slot.holder.bind (·.expiresAt) with
  | some expiry => min expiry deadline
  | none => deadline

end Slot

/-- The slots of all locks that have been touched. -/
abbrev Slots := Table Slot

namespace Slots

variable (slots : Slots) (now : Instant)

/-- The slot of a key, which is idle as long as nothing is known. -/
def slotOf (key : String) : Slot := (slots.get? key).getD Slot.idle

/-- The slots with a changed one, which is kept even if it is idle. -/
def keep (key : String) (slot : Slot) : Slots := Table.insert slots key slot

/-- The slots with a changed one, which is dropped if it is idle. -/
def settle (key : String) (slot : Slot) : Slots :=
  if slot.isIdle then Table.erase slots key else slots.keep key slot

/-- A slot that is idle is the one of which nothing is known. -/
theorem eq_idle_of_isIdle {slot : Slot} (h : slot.isIdle = true) : slot = Slot.idle := by
  obtain ⟨holder, queue⟩ := slot
  simp only [Slot.isIdle, Bool.and_eq_true, Option.isNone_iff_eq_none, List.isEmpty_iff] at h
  obtain ⟨rfl, rfl⟩ := h
  rfl

/-- The slot of a key after a change. -/
theorem slotOf_keep (key : String) (slot : Slot) (probe : String) :
    (slots.keep key slot).slotOf probe = if key = probe then slot else slots.slotOf probe := by
  simp only [slotOf, keep, Table.get?_insert]
  split <;> rfl

/-- Dropping an idle slot does not change what is known. -/
theorem slotOf_settle (key : String) (slot : Slot) (probe : String) :
    (slots.settle key slot).slotOf probe = if key = probe then slot else slots.slotOf probe := by
  rw [settle]
  split
  · rename_i h
    rw [slotOf, Table.get?_erase]
    by_cases hk : key = probe
    · simp [hk, eq_idle_of_isIdle h]
    · simp [hk, Ne.symm hk, slotOf]
  · exact slots.slotOf_keep key slot probe

/-- Takes a lock that nobody holds or queues for. A crash leaves the slot without a holder. -/
def tryAcquire (token : LockToken) (lease : Option Duration) : Except Crash Bool × Slots :=
  let slot := (slots.slotOf token.key).expireHolder now
  if slot.isIdle then
    match slot.take now token.owner lease with
    | .ok taken => (.ok true, slots.keep token.key taken)
    | .error crash => (.error crash, slots.keep token.key slot)
  else (.ok false, slots.keep token.key slot)

/-- Frees a lock that the token still owns. -/
def release (token : LockToken) : Bool × Slots :=
  match slots.get? token.key with
  | none => (false, slots)
  | some slot =>
    let slot := slot.expireHolder now
    if slot.holder.any (·.owner == token.owner) then
      (true, slots.settle token.key { slot with holder := none })
    else (false, slots.keep token.key slot)

/-- Frees a lock whoever owns it, and tells whether a holder was on record. The lease is not looked
at. -/
def forceRelease (key : String) : Bool × Slots :=
  match slots.get? key with
  | none => (false, slots)
  | some slot => (slot.holder.isSome, slots.settle key { slot with holder := none })

/-- Whether a lock has a holder. -/
def isHeld (key : String) : Bool × Slots :=
  match slots.get? key with
  | none => (false, slots)
  | some slot =>
    let slot := slot.expireHolder now
    (slot.holder.isSome, slots.keep key slot)

/-- Puts a waiter at the end of a queue. -/
def enqueue (token : LockToken) : Slots :=
  slots.keep token.key ((slots.slotOf token.key).enqueue token.owner)

/-- Takes a waiter out of a queue. -/
def dequeue (token : LockToken) : Slots :=
  match slots.get? token.key with
  | none => slots
  | some slot => slots.settle token.key (slot.dequeue token.owner)

end Slots
end Turnstile.Lock
