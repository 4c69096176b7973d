import Turnstile.Lock.Slot

/-!
# What is known of a slot after each step

Every step on the slots is described through the slot of each key: how the step's answer
follows from it, and what becomes of it. Slots of other keys stay as they are, and
nobody has to look into the table any more.
-/

namespace Turnstile.Lock

namespace Slot

variable (slot : Slot) (now : Instant)

/-- The slot held by an owner for the span of a lease. -/
def hold (owner : Owner) (lease : Option Duration) : Slot :=
  { slot with holder := some ⟨owner, lease.map (now + ·)⟩ }

/-- A lock is taken for a lease whose end the clock can represent. -/
theorem take_of_fits {now : Instant} (owner : Owner) {lease : Option Duration}
    (h : ∀ span ∈ lease, now + span < Instant.limit) :
    slot.take now owner lease = .ok (slot.hold now owner lease) := by
  rw [take, Instant.mapM_after_of_fits h]
  rfl

/-- Taking a lock for a lease whose end the clock cannot represent is a crash. -/
theorem take_of_overflow {now : Instant} (owner : Owner) {lease : Option Duration}
    (h : ∃ span ∈ lease, Instant.limit ≤ now + span) :
    slot.take now owner lease = .error .clockOverflow := by
  rw [take, Instant.mapM_after_of_overflow h]
  rfl

@[simp] theorem queue_hold (owner : Owner) (lease : Option Duration) :
    (slot.hold now owner lease).queue = slot.queue := rfl

/-- Who is let in from a slot is not its holder yet. -/
@[simp] theorem holder_callUp (kind : Kind) : (slot.callUp kind).holder = slot.holder := by
  cases kind <;> rfl

@[simp] theorem queue_expireHolder : (slot.expireHolder now).queue = slot.queue := rfl

@[simp] theorem holder_idle : idle.holder = none := rfl

@[simp] theorem expireHolder_idle : idle.expireHolder now = idle := rfl

/-- What is left of a slot's holder is a holder whose lease has not lapsed. -/
theorem holder_expireHolder_eq_some {holder : Holder} :
    (slot.expireHolder now).holder = some holder ↔
      slot.holder = some holder ∧ holder.hasLapsed now = false := by
  simp [expireHolder, Option.filter_eq_some_iff]

/-- A slot without a lapsed holder stays as it is. -/
theorem expireHolder_eq_self {slot : Slot} {now : Instant}
    (h : ∀ holder, slot.holder = some holder → holder.hasLapsed now = false) :
    slot.expireHolder now = slot := by
  obtain ⟨holder, queue⟩ := slot
  cases holder with
  | none => rfl
  | some holder => simp [expireHolder, Option.filter, h holder rfl]

/-- A slot is idle exactly if it has neither holder nor queue. -/
theorem isIdle_iff : slot.isIdle = true ↔ slot.holder = none ∧ slot.queue = [] := by
  simp [isIdle]

end Slot

namespace Slots

variable (slots : Slots) (now : Instant)

/-- A key of which nothing is known has an idle slot. -/
theorem slotOf_of_get?_eq_none {slots : Slots} {key : String} (h : slots.get? key = none) :
    slots.slotOf key = Slot.idle := by simp [slotOf, h]

/-- A known slot is the slot of its key. -/
theorem slotOf_of_get?_eq_some {slots : Slots} {key : String} {slot : Slot}
    (h : slots.get? key = some slot) : slots.slotOf key = slot := by simp [slotOf, h]

/-- The course of an attempt to take a lock without waiting: one that is neither held nor queued for
is taken, unless the clock cannot represent the end of the lease, and any other one is not. -/
theorem tryAcquire_cases (token : LockToken) (lease : Option Duration) :
    let slot := (slots.slotOf token.key).expireHolder now
    (slot.isIdle = true ∧ (∀ span ∈ lease, now + span < Instant.limit) ∧
      slots.tryAcquire now token lease =
        (.ok true, slots.keep token.key (slot.hold now token.owner lease))) ∨
    (slot.isIdle = true ∧ (∃ span ∈ lease, Instant.limit ≤ now + span) ∧
      slots.tryAcquire now token lease =
        (.error .clockOverflow, slots.keep token.key slot)) ∨
    (slot.isIdle = false ∧
      slots.tryAcquire now token lease = (.ok false, slots.keep token.key slot)) := by
  rw [tryAcquire]
  split
  · rename_i hidle
    rcases now.fits_or_overflows lease with hfits | hover
    · exact .inl ⟨hidle, hfits, by rw [Slot.take_of_fits _ _ hfits]⟩
    · exact .inr (.inl ⟨hidle, hover, by rw [Slot.take_of_overflow _ _ hover]⟩)
  · rename_i hbusy
    exact .inr (.inr ⟨Bool.eq_false_iff.2 hbusy, rfl⟩)

/-- A lock is refused without waiting exactly if it is held or queued for. -/
theorem tryAcquire_eq_false_iff (token : LockToken) (lease : Option Duration) :
    (slots.tryAcquire now token lease).1 = .ok false ↔
      ((slots.slotOf token.key).expireHolder now).isIdle = false := by
  rcases slots.tryAcquire_cases now token lease with
    ⟨hidle, -, he⟩ | ⟨hidle, -, he⟩ | ⟨hidle, he⟩ <;>
    simp [he, hidle]

/-- The slot of a key after an attempt to take its lock, by what has been answered. -/
theorem slotOf_tryAcquire (token : LockToken) (lease : Option Duration) (probe : String) :
    (slots.tryAcquire now token lease).2.slotOf probe =
      if token.key = probe then
        match (slots.tryAcquire now token lease).1 with
        | .ok true => ((slots.slotOf probe).expireHolder now).hold now token.owner lease
        | _ => (slots.slotOf probe).expireHolder now
      else slots.slotOf probe := by
  by_cases hk : token.key = probe
  · subst hk
    rcases slots.tryAcquire_cases now token lease with ⟨-, -, he⟩ | ⟨-, -, he⟩ | ⟨-, he⟩ <;>
      simp [he, slotOf_keep]
  · rcases slots.tryAcquire_cases now token lease with ⟨-, -, he⟩ | ⟨-, -, he⟩ | ⟨-, he⟩ <;>
      simp [he, slotOf_keep, hk]

/-- A lock is freed by its token exactly if the holder is the token's owner and has not lapsed. -/
theorem release_eq (token : LockToken) :
    (slots.release now token).1 =
      ((slots.slotOf token.key).expireHolder now).holder.any (·.owner == token.owner) := by
  rw [release]
  split
  · rename_i h
    rw [slotOf_of_get?_eq_none h]
    rfl
  · rename_i slot h
    rw [slotOf_of_get?_eq_some h]
    dsimp only
    split
    · rename_i howned
      exact howned.symm
    · rename_i howned
      exact (Bool.eq_false_iff.2 howned).symm

/-- Freeing a lock by its token takes away the holder that it names, and any that has lapsed. -/
theorem slotOf_release (token : LockToken) (probe : String) :
    (slots.release now token).2.slotOf probe =
      if token.key = probe then
        let slot := (slots.slotOf probe).expireHolder now
        if slot.holder.any (·.owner == token.owner) then { slot with holder := none } else slot
      else slots.slotOf probe := by
  rw [release]
  split
  · rename_i h
    by_cases hk : token.key = probe
    · subst hk
      simp [slotOf_of_get?_eq_none h, Slot.holder_idle]
    · simp [hk]
  · rename_i slot h
    by_cases hk : token.key = probe
    · subst hk
      rw [slotOf_of_get?_eq_some h]
      dsimp only
      split
      · simp [slotOf_settle]
      · simp [slotOf_keep]
    · dsimp only
      split
      · simp [slotOf_settle, hk]
      · simp [slotOf_keep, hk]

/-- Freeing a lock by force takes its holder away, lapsed or not. -/
theorem slotOf_forceRelease (key probe : String) :
    (slots.forceRelease key).2.slotOf probe =
      if key = probe then { slots.slotOf probe with holder := none } else slots.slotOf probe := by
  rw [forceRelease]
  split
  · rename_i h
    by_cases hk : key = probe
    · subst hk
      simp [slotOf_of_get?_eq_none h, Slot.idle]
    · simp [hk]
  · rename_i slot h
    by_cases hk : key = probe
    · subst hk
      simp [slotOf_settle, slotOf_of_get?_eq_some h]
    · simp [slotOf_settle, hk]

/-- A lock has a holder exactly if there is one whose lease has not lapsed. -/
theorem isHeld_eq (key : String) :
    (slots.isHeld now key).1 = ((slots.slotOf key).expireHolder now).holder.isSome := by
  rw [isHeld]
  split
  · rename_i h
    simp [slotOf_of_get?_eq_none h, Slot.idle, Slot.expireHolder]
  · rename_i slot h
    rw [slotOf_of_get?_eq_some h]

/-- Asking for the holder takes away one that has lapsed. -/
theorem slotOf_isHeld (key probe : String) :
    (slots.isHeld now key).2.slotOf probe =
      if key = probe then (slots.slotOf probe).expireHolder now else slots.slotOf probe := by
  rw [isHeld]
  split
  · rename_i h
    by_cases hk : key = probe
    · subst hk
      simp [slotOf_of_get?_eq_none h]
    · simp [hk]
  · rename_i slot h
    by_cases hk : key = probe
    · subst hk
      simp [slotOf_keep, slotOf_of_get?_eq_some h]
    · simp [slotOf_keep, hk]

/-- A fair waiter goes to the end of the queue of its key. -/
theorem slotOf_enqueue (token : LockToken) (probe : String) :
    (slots.enqueue token).slotOf probe =
      if token.key = probe then (slots.slotOf probe).enqueue token.owner
      else slots.slotOf probe := by
  rw [enqueue, slotOf_keep]
  by_cases hk : token.key = probe
  · simp [hk]
  · simp [hk]

/-- A fair waiter leaves the queue of its key. -/
theorem slotOf_dequeue (token : LockToken) (probe : String) :
    (slots.dequeue token).slotOf probe =
      if token.key = probe then (slots.slotOf probe).dequeue token.owner
      else slots.slotOf probe := by
  rw [dequeue]
  split
  · rename_i h
    by_cases hk : token.key = probe
    · subst hk
      simp [slotOf_of_get?_eq_none h, Slot.idle, Slot.dequeue]
    · simp [hk]
  · rename_i slot h
    by_cases hk : token.key = probe
    · subst hk
      simp [slotOf_settle, slotOf_of_get?_eq_some h]
    · simp [slotOf_settle, hk]

/-- A slot that is kept as it was changes nothing. -/
theorem keep_of_get?_eq_some {slots : Slots} {key : String} {slot : Slot}
    (h : slots.get? key = some slot) : slots.keep key slot = slots :=
  Table.insert_eq_self h

/-- A token that does not name the live holder frees nothing, and changes nothing at all. -/
theorem release_of_other {slots : Slots} {now : Instant} {token : LockToken} {holder : Holder}
    (hh : ((slots.slotOf token.key).expireHolder now).holder = some holder)
    (hne : token.owner ≠ holder.owner) : slots.release now token = (false, slots) := by
  obtain ⟨hold, hlive⟩ := (Slot.holder_expireHolder_eq_some _ _).1 hh
  rw [release]
  split
  · rfl
  · rename_i slot hget
    rw [slotOf_of_get?_eq_some hget] at hold
    have hsame : slot.expireHolder now = slot := Slot.expireHolder_eq_self fun h hs => by
      rw [hold] at hs
      cases hs
      exact hlive
    simp [hsame, hold, Ne.symm hne, keep_of_get?_eq_some hget]

end Slots
end Turnstile.Lock
