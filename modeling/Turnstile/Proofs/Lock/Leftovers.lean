import Turnstile.Proofs.Lock.Queue

/-!
# Slots that are left behind

A slot that has neither holder nor queue need not be on record: it is the same as one of which
nothing is known. Whoever takes a lock, waits for it in the queue or frees it sees to that. Whoever
only asks for the holder, or tries to free the lock in vain, does not: if the lease of the holder
has lapsed, the holder is taken off the record, and what is left of the slot stays there until
somebody comes to the lock for a better reason. So does the slot that somebody was about to take
for a lease whose end the clock cannot represent.
-/

namespace Turnstile.Lock

/-! ## Entries after a change -/

namespace Slots

variable (slots : Slots)

/-- The entry of a key after a slot has been put on record. -/
theorem get?_keep (key : String) (slot : Slot) (probe : String) :
    (slots.keep key slot).get? probe = if key = probe then some slot else slots.get? probe :=
  Table.get?_insert slots key slot probe

/-- A slot that has been put on record is the one of its key. -/
theorem get?_keep_self (key : String) (slot : Slot) :
    (slots.keep key slot).get? key = some ((slots.keep key slot).slotOf key) := by
  rw [get?_keep, slotOf_keep, if_pos rfl, if_pos rfl]

/-- The entry of a key after a slot has been put on record unless it is idle. -/
theorem get?_settle (key : String) (slot : Slot) (probe : String) :
    (slots.settle key slot).get? probe =
      if key = probe then (if slot.isIdle then none else some slot) else slots.get? probe := by
  rw [settle]
  split
  · rw [Table.get?_erase]
    by_cases hk : key = probe
    · rw [if_pos hk.symm, if_pos hk]
    · rw [if_neg (Ne.symm hk), if_neg hk]
  · exact slots.get?_keep key slot probe

/-- A slot that has been put on record unless it is idle is not an idle one. -/
theorem get?_settle_ne_idle (key : String) (slot : Slot) :
    (slots.settle key slot).get? key ≠ some Slot.idle := by
  rw [get?_settle, if_pos rfl]
  intro h
  split at h
  · cases h
  · rename_i hbusy
    cases h
    exact hbusy rfl

/-- A slot with a holder or a queue that has been put on record is not an idle one. -/
theorem get?_keep_ne_idle {key : String} {slot : Slot} (h : slot.isIdle = false) :
    (slots.keep key slot).get? key ≠ some Slot.idle := by
  rw [get?_keep, if_pos rfl]
  intro hidle
  cases hidle
  cases h

variable (now : Instant)

/-- A lock that has been freed by its token leaves no idle slot on record. -/
theorem get?_release_of_freed {slots : Slots} {now : Instant} {token : LockToken}
    (h : (slots.release now token).1 = true) :
    (slots.release now token).2.get? token.key ≠ some Slot.idle := by
  unfold release at h ⊢
  split at h
  · cases h
  · dsimp only at h ⊢
    split at h
    · rename_i howned
      rw [if_pos howned]
      exact get?_settle_ne_idle _ _ _
    · cases h

/-- A lock that has not been freed by a token keeps what is left of its slot on record. -/
theorem get?_release_of_refused {slots : Slots} {now : Instant} {token : LockToken}
    (h : (slots.release now token).1 = false) :
    (slots.release now token).2.get? token.key =
      (slots.get? token.key).map (·.expireHolder now) := by
  unfold release at h ⊢
  split at h
  · rename_i hnone
    rw [hnone]
    rfl
  · rename_i slot hsome
    dsimp only at h ⊢
    split at h
    · cases h
    · rename_i hother
      rw [if_neg hother, get?_keep, if_pos rfl, hsome]
      rfl

/-- Freeing a lock by its token leaves the entries of other keys alone. -/
theorem get?_release_of_ne {token : LockToken} {probe : String} (hk : token.key ≠ probe) :
    (slots.release now token).2.get? probe = slots.get? probe := by
  unfold release
  split
  · rfl
  · dsimp only
    split
    · rw [get?_settle, if_neg hk]
    · rw [get?_keep, if_neg hk]

/-- Freeing a lock by force leaves no idle slot on record. -/
theorem get?_forceRelease_ne_idle (key : String) :
    (slots.forceRelease key).2.get? key ≠ some Slot.idle := by
  unfold forceRelease
  split
  · rename_i hnone
    rw [hnone]
    exact nofun
  · exact get?_settle_ne_idle _ _ _

/-- Freeing a lock by force leaves the entries of other keys alone. -/
theorem get?_forceRelease_of_ne {key probe : String} (hk : key ≠ probe) :
    (slots.forceRelease key).2.get? probe = slots.get? probe := by
  unfold forceRelease
  split
  · rfl
  · rw [get?_settle, if_neg hk]

/-- An attempt to take a lock without waiting leaves no idle slot on record, unless it crashes. -/
theorem get?_tryAcquire_ne_idle {slots : Slots} {now : Instant} {token : LockToken}
    {lease : Option Duration} {taken : Bool}
    (h : (slots.tryAcquire now token lease).1 = .ok taken) :
    (slots.tryAcquire now token lease).2.get? token.key ≠ some Slot.idle := by
  rcases slots.tryAcquire_cases now token lease with ⟨-, -, he⟩ | ⟨-, -, he⟩ | ⟨hbusy, he⟩
  · rw [he]
    exact get?_keep_ne_idle _ rfl
  · rw [he] at h
    cases h
  · rw [he]
    exact get?_keep_ne_idle _ hbusy

/-- An attempt to take a lock without waiting puts what is left of its slot on record, even if it
crashes. -/
theorem get?_tryAcquire (token : LockToken) (lease : Option Duration) :
    (slots.tryAcquire now token lease).2.get? token.key =
      some ((slots.tryAcquire now token lease).2.slotOf token.key) := by
  rcases slots.tryAcquire_cases now token lease with ⟨-, -, he⟩ | ⟨-, -, he⟩ | ⟨-, he⟩ <;>
    rw [he] <;> exact slots.get?_keep_self _ _

/-- An attempt to take a lock without waiting leaves the entries of other keys alone. -/
theorem get?_tryAcquire_of_ne {token : LockToken} (lease : Option Duration) {probe : String}
    (hk : token.key ≠ probe) :
    (slots.tryAcquire now token lease).2.get? probe = slots.get? probe := by
  rcases slots.tryAcquire_cases now token lease with ⟨-, -, he⟩ | ⟨-, -, he⟩ | ⟨-, he⟩ <;>
    rw [he, get?_keep, if_neg hk]

/-- Asking for the holder keeps what is left of the slot on record. -/
theorem get?_isHeld (key probe : String) :
    (slots.isHeld now key).2.get? probe =
      if key = probe then (slots.get? probe).map (·.expireHolder now) else slots.get? probe := by
  unfold isHeld
  by_cases hk : key = probe
  · subst hk
    rw [if_pos rfl]
    split
    · rename_i hnone
      rw [hnone]
      rfl
    · rename_i slot hsome
      rw [get?_keep, if_pos rfl, hsome]
      rfl
  · rw [if_neg hk]
    split
    · rfl
    · rw [get?_keep, if_neg hk]

/-- Whoever leaves the queue leaves no idle slot on record. -/
theorem get?_dequeue_ne_idle (token : LockToken) :
    (slots.dequeue token).get? token.key ≠ some Slot.idle := by
  unfold dequeue
  split
  · rename_i hnone
    rw [hnone]
    exact nofun
  · exact get?_settle_ne_idle _ _ _

/-- Whoever leaves the queue leaves the entries of other keys alone. -/
theorem get?_dequeue_of_ne {token : LockToken} {probe : String} (hk : token.key ≠ probe) :
    (slots.dequeue token).get? probe = slots.get? probe := by
  unfold dequeue
  split
  · rfl
  · rw [get?_settle, if_neg hk]

end Slots

namespace Slot

variable (slot : Slot) (now : Instant)

/-- Who holds a lock is seen in its slot. -/
theorem isIdle_hold (owner : Owner) (lease : Option Duration) :
    (slot.hold now owner lease).isIdle = false := rfl

/-- Who waits in a queue is seen in its slot. -/
theorem isIdle_of_mem {slot : Slot} {owner : Owner} (h : owner ∈ slot.queue) :
    slot.isIdle = false := by
  apply Bool.eq_false_iff.2
  intro hidle
  rw [((isIdle_iff slot).1 hidle).2] at h
  cases h

/-- What is left of a slot is idle if it was so before, or if its holder has lapsed and nobody is
in the queue. -/
theorem expireHolder_eq_idle_iff : slot.expireHolder now = idle ↔
    slot = idle ∨ ∃ holder, slot = ⟨some holder, []⟩ ∧ holder.hasLapsed now = true := by
  obtain ⟨holder, queue⟩ := slot
  cases holder with
  | none => simp [expireHolder, idle]
  | some holder =>
    cases hlapsed : holder.hasLapsed now with
    | false => simp [expireHolder, Option.filter, hlapsed, idle]
    | true =>
      simp only [expireHolder, Option.filter, hlapsed, idle, mk.injEq, Option.some.injEq]
      constructor
      · rintro ⟨-, rfl⟩
        exact .inr ⟨holder, ⟨rfl, rfl⟩, hlapsed⟩
      · rintro (⟨⟨⟩, -⟩ | ⟨_, ⟨-, rfl⟩, -⟩)
        exact ⟨rfl, rfl⟩

end Slot

/-! ## What an event does to an entry -/

namespace Event

/-- Whether an event comes to the lock of a key to take it, to queue for it or to free it, and does
not crash. -/
def settles (key : String) : Event → Bool
  | .tried token _ answer => answer.isOk && token.key = key
  | .entered token kind _ _ => kind = .fair && token.key = key
  | .looked _ (.crashes _) => false
  | .looked waiter _ => !waiter.leaving && waiter.token.key = key
  | .left waiter => waiter.kind = .fair && waiter.token.key = key
  | .released token freed => freed && token.key = key
  | .forced forcedKey _ => forcedKey = key
  | .probed .. => false

/-- Whether an event asks only for the holder of a key's lock, or tries in vain to free it. -/
def glances (key : String) : Event → Bool
  | .released token freed => !freed && token.key = key
  | .probed probedKey _ => probedKey = key
  | _ => false

/-- Whether an event crashes over the lock of a key. -/
def crashes (key : String) : Event → Bool
  | .tried token _ answer => !answer.isOk && token.key = key
  | .looked waiter (.crashes _) => waiter.token.key = key
  | _ => false

/-- A waiter that comes to a lock with a look has not given up. -/
theorem stays_of_settles {waiter : Waiter} {outcome : Look} {key : String}
    (h : (Event.looked waiter outcome).settles key = true) :
    waiter.leaving = false ∧ waiter.token.key = key := by
  cases outcome with
  | crashes => cases h
  | _ => simpa [settles] using h

theorem crashes_looked {waiter : Waiter} {outcome : Look} {key : String} :
    (Event.looked waiter outcome).crashes key = true ↔
      (∃ crash, outcome = .crashes crash) ∧ waiter.token.key = key := by
  cases outcome with
  | crashes crash =>
    exact ⟨fun h => ⟨⟨crash, rfl⟩, of_decide_eq_true h⟩, fun h => decide_eq_true h.2⟩
  | _ => simp [crashes]

/-- A look that neither comes to a lock nor crashes over it is a look at another one. -/
theorem key_ne_of_neither {waiter : Waiter} {outcome : Look} {key : String}
    (hl : waiter.leaving = false) (hsettles : (Event.looked waiter outcome).settles key = false)
    (hcrashes : (Event.looked waiter outcome).crashes key = false) : waiter.token.key ≠ key := by
  cases outcome with
  | crashes => exact of_decide_eq_false hcrashes
  | _ => simpa [settles, hl] using hsettles

end Event

section Entries

variable {now : Instant} {room next : Room} {event : Event} {key : String}

/-- Who leaves is not in the room any more. -/
theorem Room.not_mem_leave {owner : Owner} {waiter w : Waiter}
    (h : room.waiter? owner = some waiter) (hw : w ∈ (room.leave owner).waiters) :
    w.token.owner ≠ owner := by
  simp only [leave, h] at hw
  split at hw
  · exact (mem_without.1 hw).2
  · obtain ⟨w', hw', htoken, -⟩ := mem_waiters_notify hw
    rw [← htoken]
    exact (mem_without.1 hw').2

/-- A fair waiter that is called up or leaves does not wait any more. -/
theorem Happens.not_waiting_of_end (h : Happens now room event next) {token : LockToken}
    (hend : event.fairEnd? = some token) {waiter : Waiter} (hw : waiter ∈ next.waiters) :
    waiter.token.owner ≠ token.owner := by
  cases h with
  | @looked owner w hfound =>
    obtain ⟨hcalled, -, htoken⟩ := Event.fairEnd?_looked.1 hend
    rw [(Room.admits_of_called hfound hcalled).2.2] at hw
    rw [← htoken, (Room.mem_of_waiter? hfound).2]
    exact (Room.mem_without.1 hw).2
  | @left owner w hfound =>
    obtain rfl := Option.some.inj (Option.ite_none_right_eq_some.1 hend).2
    rw [(Room.mem_of_waiter? hfound).2]
    exact Room.not_mem_leave hfound hw
  | _ => cases hend

/-- A fair waiter is in the queue of its lock for as long as it waits. -/
theorem Course.mem_queue_of_fair {history : History} (h : Course history room) {waiter : Waiter}
    (hw : waiter ∈ room.waiters) (hfair : waiter.kind = .fair) :
    waiter.token.owner ∈ (room.slot waiter.token.key).queue := by
  induction h generalizing waiter with
  | start => cases hw
  | @event history room next now event course happens fresh ih =>
    have hnodup := (course.queue_eq_pending waiter.token.key).2.1
    rcases happens.waiter_origin hw with ⟨w, hmem, htoken, hkind, -⟩ | ⟨wait, rfl⟩
    · have hqueued := ih hmem (hkind.trans hfair)
      rw [htoken] at hqueued
      cases harr : event.fairArrival? with
      | some token =>
        rw [happens.queue_of_arrival harr]
        split
        · exact List.mem_append_left _ hqueued
        · exact hqueued
      | none =>
        cases hend : event.fairEnd? with
        | none =>
          rw [happens.queue_of_neither harr hend]
          exact hqueued
        | some token =>
          have hother := happens.not_waiting_of_end hend hw
          rw [happens.queue_of_end hend _ hnodup]
          split
          · exact List.mem_filter.2 ⟨hqueued, bne_iff_ne.2 hother⟩
          · exact hqueued
    · rw [hfair] at happens
      rw [happens.queue_of_arrival rfl, if_pos rfl]
      exact List.mem_append_right _ List.mem_cons_self

/-- Whether others are told of a release does not matter to any entry. -/
theorem Room.slots_release (room : Room) (now : Instant) (token : LockToken) :
    (room.release now token).2.slots = (room.slots.release now token).2 := by
  simp only [release]
  split <;> rfl

/-- Whoever comes to a lock to take it, to queue for it or to free it leaves no idle slot behind. -/
theorem Happens.entry_of_settles (h : Happens now room event next)
    (hqueued : ∀ waiter ∈ room.waiters, waiter.kind = .fair →
      waiter.token.owner ∈ (room.slot waiter.token.key).queue)
    (hsettles : event.settles key = true) : next.slots.get? key ≠ some Slot.idle := by
  cases h with
  | tried token lease =>
    simp only [Event.settles, Bool.and_eq_true, decide_eq_true_eq] at hsettles
    obtain ⟨hanswered, rfl⟩ := hsettles
    cases hanswer : (room.tryAcquire now token lease).1 with
    | ok taken => exact Slots.get?_tryAcquire_ne_idle hanswer
    | error crash =>
      rw [hanswer] at hanswered
      cases hanswered
  | entered hentered =>
    simp only [Event.settles, Bool.and_eq_true, decide_eq_true_eq] at hsettles
    obtain ⟨rfl, rfl⟩ := hsettles
    obtain ⟨-, rfl⟩ := Room.enter_eq_ok_iff.1 hentered
    apply Slots.get?_keep_ne_idle
    apply Slot.isIdle_of_mem
    exact List.mem_append_right _ List.mem_cons_self
  | @looked owner waiter hfound =>
    obtain ⟨hstays, rfl⟩ := Event.stays_of_settles hsettles
    obtain ⟨hmem, rfl⟩ := Room.mem_of_waiter? hfound
    -- A slot that refuses a waiter has a holder, or the waiter itself is in the queue.
    have hbusy (hrefused : ((room.slot waiter.token.key).expireHolder now).admits waiter.kind
        waiter.token.owner = false) :
        ((room.slot waiter.token.key).expireHolder now).isIdle = false := by
      cases hkind : waiter.kind with
      | exclusive =>
        apply Bool.eq_false_iff.2
        intro hidle
        rw [hkind, Slot.admits, ((Slot.isIdle_iff _).1 hidle).1] at hrefused
        cases hrefused
      | fair => exact Slot.isIdle_of_mem (hqueued waiter hmem hkind)
    rcases Room.look_cases now hfound hstays with
      ⟨-, -, he⟩ | ⟨-, -, he⟩ | ⟨hrefused, -, he⟩ | ⟨hrefused, -, he⟩
    · rw [he]
      exact Slots.get?_keep_ne_idle _ (Slot.isIdle_hold ..)
    · rw [he] at hsettles
      cases hsettles
    · rw [he]
      exact Slots.get?_keep_ne_idle _ (hbusy hrefused)
    · rw [he]
      exact Slots.get?_keep_ne_idle _ (hbusy hrefused)
  | @left owner waiter hfound =>
    simp only [Event.settles, Bool.and_eq_true, decide_eq_true_eq] at hsettles
    obtain ⟨hfair, rfl⟩ := hsettles
    simp only [Room.leave, hfound, hfair, Room.notify]
    exact room.slots.get?_dequeue_ne_idle waiter.token
  | released token =>
    simp only [Event.settles, Bool.and_eq_true, decide_eq_true_eq] at hsettles
    obtain ⟨hfreed, rfl⟩ := hsettles
    rw [Room.slots_release]
    exact Slots.get?_release_of_freed hfreed
  | forced forcedKey =>
    obtain rfl : forcedKey = key := of_decide_eq_true hsettles
    exact room.slots.get?_forceRelease_ne_idle forcedKey
  | probed probedKey => cases hsettles

/-- Whoever glances at a lock keeps what is left of its slot on record. -/
theorem Happens.entry_of_glances (h : Happens now room event next)
    (hglances : event.glances key = true) :
    next.slots.get? key = (room.slots.get? key).map (·.expireHolder now) := by
  cases h with
  | released token =>
    simp only [Event.glances, Bool.and_eq_true, Bool.not_eq_true', decide_eq_true_eq] at hglances
    obtain ⟨hrefused, rfl⟩ := hglances
    rw [Room.slots_release]
    exact Slots.get?_release_of_refused hrefused
  | probed probedKey =>
    obtain rfl : probedKey = key := of_decide_eq_true hglances
    exact (room.slots.get?_isHeld now probedKey probedKey).trans (if_pos rfl)
  | _ => cases hglances

/-- Whoever crashes over a lock puts what is left of its slot on record. -/
theorem Happens.entry_of_crashes (h : Happens now room event next)
    (hcrashes : event.crashes key = true) :
    next.slots.get? key = some (event.slotAfter now key (room.slot key)) := by
  rw [← h.slot]
  cases h with
  | tried token lease =>
    simp only [Event.crashes, Bool.and_eq_true, decide_eq_true_eq] at hcrashes
    obtain ⟨-, rfl⟩ := hcrashes
    exact room.slots.get?_tryAcquire now token lease
  | @looked owner waiter hfound =>
    obtain ⟨⟨crash, hcrash⟩, rfl⟩ := Event.crashes_looked.1 hcrashes
    have hstays := (Room.admits_of_called hfound (by rw [hcrash]; rfl)).2.1
    rcases Room.look_cases now hfound hstays with
      ⟨-, -, he⟩ | ⟨-, -, he⟩ | ⟨-, -, he⟩ | ⟨-, -, he⟩ <;>
      rw [he] <;> exact Slots.get?_keep_self _ _ _
  | _ => cases hcrashes

/-- Nobody holds a lock that somebody has crashed over. -/
theorem Happens.free_of_crashes (h : Happens now room event next)
    (hcrashes : event.crashes key = true) :
    (event.slotAfter now key (room.slot key)).holder = none := by
  cases h with
  | tried token lease =>
    simp only [Event.crashes, Bool.and_eq_true, decide_eq_true_eq] at hcrashes
    obtain ⟨hcrashed, rfl⟩ := hcrashes
    simp only [Room.tryAcquire] at hcrashed ⊢
    rcases room.slots.tryAcquire_cases now token lease with
      ⟨-, -, he⟩ | ⟨hidle, -, he⟩ | ⟨-, he⟩ <;> rw [he] at hcrashed ⊢
    · cases hcrashed
    · simp only [Event.slotAfter, if_true]
      exact ((Slot.isIdle_iff _).1 hidle).1
    · cases hcrashed
  | @looked owner waiter hfound =>
    obtain ⟨⟨crash, hcrash⟩, rfl⟩ := Event.crashes_looked.1 hcrashes
    have hadmits := (Room.admits_of_called hfound (by rw [hcrash]; rfl)).1
    simp only [Slot.admits, Bool.and_eq_true, Option.isNone_iff_eq_none] at hadmits
    simp only [hcrash, Event.slotAfter, if_true, Slot.holder_callUp]
    exact hadmits.1
  | _ => cases hcrashes

/-- Somebody who crashes over an idle slot leaves it idle. -/
theorem Event.slotAfter_idle_of_crashes (hcrashes : event.crashes key = true) :
    event.slotAfter now key Slot.idle = Slot.idle := by
  cases event with
  | tried token lease answer =>
    cases answer with
    | ok taken => cases hcrashes
    | error crash => simp [slotAfter]
  | looked waiter outcome =>
    obtain ⟨⟨crash, rfl⟩, rfl⟩ := crashes_looked.1 hcrashes
    simp only [slotAfter, if_true, Slot.expireHolder_idle]
    cases waiter.kind <;> rfl
  | _ => cases hcrashes

/-- An event that neither settles a lock, nor glances at it, nor crashes over it leaves its entry as
it is. -/
theorem Happens.entry_of_neither (h : Happens now room event next)
    (hsettles : event.settles key = false) (hglances : event.glances key = false)
    (hcrashes : event.crashes key = false) : next.slots.get? key = room.slots.get? key := by
  cases h with
  | tried token lease =>
    have hk : token.key ≠ key := by
      intro hk
      simp only [Event.settles, Event.crashes, hk, decide_true, Bool.and_true] at hsettles hcrashes
      rw [hsettles] at hcrashes
      cases hcrashes
    exact room.slots.get?_tryAcquire_of_ne now lease hk
  | @entered token kind wait lease next hentered =>
    obtain ⟨-, rfl⟩ := Room.enter_eq_ok_iff.1 hentered
    cases kind with
    | exclusive => rfl
    | fair =>
      have hk : token.key ≠ key := of_decide_eq_false hsettles
      exact (Slots.get?_keep ..).trans (if_neg hk)
  | @looked owner waiter hfound =>
    cases hl : waiter.leaving with
    | true => rw [Room.look_of_leaving now hfound hl]
    | false =>
      have hk : waiter.token.key ≠ key := Event.key_ne_of_neither hl hsettles hcrashes
      rcases Room.look_cases now hfound hl with
        ⟨-, -, he⟩ | ⟨-, -, he⟩ | ⟨-, -, he⟩ | ⟨-, -, he⟩ <;>
        rw [he] <;> exact (Slots.get?_keep ..).trans (if_neg hk)
  | @left owner waiter hfound =>
    cases hkind : waiter.kind with
    | exclusive => simp only [Room.leave, hfound, hkind]
    | fair =>
      have hk : waiter.token.key ≠ key := by
        simpa [Event.settles, hkind] using hsettles
      simp only [Room.leave, hfound, hkind, Room.notify]
      exact room.slots.get?_dequeue_of_ne hk
  | released token =>
    have hk : token.key ≠ key := by
      intro hk
      simp only [Event.settles, Event.glances, hk, decide_true, Bool.and_true] at hsettles hglances
      rw [hsettles] at hglances
      cases hglances
    rw [Room.slots_release]
    exact room.slots.get?_release_of_ne now hk
  | forced forcedKey => exact room.slots.get?_forceRelease_of_ne (of_decide_eq_false hsettles)
  | probed probedKey =>
    exact (room.slots.get?_isHeld now probedKey key).trans (if_neg (of_decide_eq_false hglances))

end Entries

/-! ## Idle slots on record -/

/-- An event leads to one room. -/
theorem Happens.unique {now : Instant} {room next next' : Room} {event : Event}
    (h : Happens now room event next) (h' : Happens now room event next') : next = next' := by
  cases h with
  | tried | released | forced | probed =>
    cases h'
    rfl
  | entered hentered =>
    cases h' with
    | entered hentered' => exact Except.ok.inj (hentered.symm.trans hentered')
  | looked hfound =>
    generalize hevent : Event.looked _ _ = event at h'
    cases h' with
    | looked hfound' =>
      obtain ⟨rfl, -⟩ := Event.looked.inj hevent
      rw [← (Room.mem_of_waiter? hfound).2, ← (Room.mem_of_waiter? hfound').2]
    | _ => cases hevent
  | left hfound =>
    cases h' with
    | left hfound' =>
      rw [← (Room.mem_of_waiter? hfound).2, ← (Room.mem_of_waiter? hfound').2]

/-- A course leads to one room. -/
theorem Course.unique {history : History} {room room' : Room} (h : Course history room)
    (h' : Course history room') : room = room' := by
  induction h generalizing room' with
  | start =>
    cases h'
    rfl
  | event course happens fresh ih =>
    cases h' with
    | event course' happens' fresh' =>
      obtain rfl := ih course'
      exact happens.unique happens'

/-- A lock has been left behind: somebody has glanced at it when the lease of its holder had lapsed
and nobody was in the queue, or has crashed over it with nobody else in the queue, and nobody has
come to it since to take it, to queue for it or to free it. -/
inductive LeftBehind (key : String) : History → Prop
  | glanced {now : Instant} {event : Event} {earlier : History} {before : Room} {holder : Holder}
      (course : Course earlier before) (hentry : before.slots.get? key = some ⟨some holder, []⟩)
      (hlapsed : holder.hasLapsed now = true) (hglances : event.glances key = true) :
      LeftBehind key ((now, event) :: earlier)
  | crashed {now : Instant} {event : Event} {earlier : History} {before : Room}
      (course : Course earlier before) (hcrashes : event.crashes key = true)
      (hnobody : (event.slotAfter now key (before.slot key)).queue = []) :
      LeftBehind key ((now, event) :: earlier)
  | since {now : Instant} {event : Event} {history : History} (h : LeftBehind key history)
      (hnobody : event.settles key = false) : LeftBehind key ((now, event) :: history)

namespace Course

variable {history : History} {room : Room}

/-- A slot without holder and queue is on record exactly if its lock has been left behind. So none
is on record after a lock has been taken, waited for or freed, nor after it has been tried or
looked at in order to take it: only to ask for its holder, to free it in vain or to crash over it
may leave one. -/
theorem idle_slot_iff (course : Course history room) (key : String) :
    (room.slots.get? key = some Slot.idle ↔ LeftBehind key history) ∧
      ∀ x ∈ history.head?, x.2.settles key = true → room.slots.get? key ≠ some Slot.idle := by
  induction course with
  | start =>
    refine ⟨⟨?_, ?_⟩, ?_⟩
    · intro h
      cases h
    · intro h
      cases h
    · intro x hx
      cases hx
  | @event history room next now event course happens fresh ih =>
    obtain ⟨ih, -⟩ := ih
    have hsettled (hsettles : event.settles key = true) : next.slots.get? key ≠ some Slot.idle :=
      happens.entry_of_settles (fun _ hw hfair => course.mem_queue_of_fair hw hfair) hsettles
    refine ⟨⟨?kept, ?explained⟩, ?_⟩
    case kept =>
      intro hidle
      have hnobody : event.settles key = false :=
        Bool.eq_false_iff.2 fun hsettles => hsettled hsettles hidle
      cases hglances : event.glances key with
      | false =>
        cases hcrashes : event.crashes key with
        | false =>
          rw [happens.entry_of_neither hnobody hglances hcrashes] at hidle
          exact .since (ih.1 hidle) hnobody
        | true =>
          rw [happens.entry_of_crashes hcrashes, Option.some.injEq] at hidle
          exact .crashed course hcrashes (by rw [hidle]; rfl)
      | true =>
        rw [happens.entry_of_glances hglances] at hidle
        obtain ⟨slot, hentry, hleft⟩ := Option.map_eq_some_iff.1 hidle
        rcases (slot.expireHolder_eq_idle_iff now).1 hleft with rfl | ⟨holder, rfl, hlapsed⟩
        · exact .since (ih.1 hentry) hnobody
        · exact .glanced course hentry hlapsed hglances
    case explained =>
      intro hleft
      cases hleft with
      | glanced course' hentry hlapsed hglances =>
        obtain rfl := course.unique course'
        rw [happens.entry_of_glances hglances, hentry, Option.map_some]
        exact congrArg some ((Slot.expireHolder_eq_idle_iff _ now).2 (.inr ⟨_, rfl, hlapsed⟩))
      | crashed course' hcrashes hnobody =>
        obtain rfl := course.unique course'
        rw [happens.entry_of_crashes hcrashes]
        exact congrArg some (Slots.eq_idle_of_isIdle
          ((Slot.isIdle_iff _).2 ⟨happens.free_of_crashes hcrashes, hnobody⟩))
      | since hleft hnobody =>
        have hidle := ih.2 hleft
        cases hglances : event.glances key with
        | false =>
          cases hcrashes : event.crashes key with
          | false => rw [happens.entry_of_neither hnobody hglances hcrashes, hidle]
          | true =>
            have hslot : room.slot key = Slot.idle := Slots.slotOf_of_get?_eq_some hidle
            rw [happens.entry_of_crashes hcrashes, hslot, Event.slotAfter_idle_of_crashes hcrashes]
        | true =>
          rw [happens.entry_of_glances hglances, hidle]
          rfl
    · rintro x ⟨⟩ hsettles
      exact hsettled hsettles

/-- A lock is taken for ten instants, and twenty later somebody asks whether it has a holder. -/
def deserted : History := [(20, .probed "k" false), (0, .tried ⟨"k", "a"⟩ (some 10) (.ok true))]

/-- The slot is on record still, though the lock has neither a holder nor a queue. When the lock
is freed by force, the slot is gone. -/
theorem idle_slot_iff_of_deserted :
    (∃ room, Course deserted room ∧ room.slots.get? "k" = some Slot.idle) ∧
    ∃ room, Course ((30, .forced "k" false) :: deserted) room ∧
      room.slots.get? "k" ≠ some Slot.idle := by
  have tried := Course.start.event (@Happens.tried 0 _ ⟨"k", "a"⟩ (some 10)) (by decide)
  have probed := tried.event (@Happens.probed 20 _ "k") (by decide)
  have forced := probed.event (@Happens.forced 30 _ "k") (by decide)
  have hleft : LeftBehind "k" deserted := .glanced tried rfl (by decide) rfl
  exact ⟨⟨_, probed, (probed.idle_slot_iff "k").1.2 hleft⟩,
    _, forced, (forced.idle_slot_iff "k").2 _ rfl rfl⟩

/-- An operation may be over, and a slot be on record whose lock has neither holder nor queue. -/
theorem probed_but_not_removed : ∃ history room now key held,
    Course ((now, .probed key held) :: history) room ∧
      History.InOrder now ((now, .probed key held) :: history) ∧
      room.slots.get? key = some Slot.idle := by
  have tried := Course.start.event (@Happens.tried 0 _ ⟨"k", "a"⟩ (some 10)) (by decide)
  have probed := tried.event (@Happens.probed 20 _ "k") (by decide)
  exact ⟨_, _, 20, "k", _, probed, by decide, rfl⟩

end Course

end Turnstile.Lock
