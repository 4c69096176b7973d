import Turnstile.Lock.Room
import Turnstile.Proofs.Lock.Slots

/-!
# Events in a waiting room

Whatever is done in a room is one of seven kinds of events, each an indivisible step at
some instant. Nothing is said about who takes which step when: a waiter may look at any
time, and a waiter may leave at any time, because its own time is over or because it is
called off.

Three things are followed through every event: the holder of a lock, its queue, and the
waiters in the room. Where the clock cannot represent the end of a lease, whoever would take
the lock for it crashes instead; a wait whose deadline cannot be represented does not begin.
-/

namespace Turnstile.Lock

/-- Whether a look calls a waiter up, to take the lock or to crash over it. -/
def Look.isCalled : Look → Bool
  | .admitted | .crashes _ => true
  | .waits | .givesUp | .gone => false

/-- What happens in a room, with what came of it. -/
inductive Event
  /-- Somebody has tried to take a lock without waiting. -/
  | tried (token : LockToken) (lease : Option Duration) (answer : Except Crash Bool)
  /-- An acquisition has begun to wait. -/
  | entered (token : LockToken) (kind : Kind) (wait : Duration) (lease : Option Duration)
  /-- A waiter has looked at its slot. -/
  | looked (waiter : Waiter) (outcome : Look)
  /-- A waiter has left without the lock. -/
  | left (waiter : Waiter)
  /-- Somebody has tried to free a lock by its token. -/
  | released (token : LockToken) (freed : Bool)
  /-- Somebody has freed a lock by force. -/
  | forced (key : String) (freed : Bool)
  /-- Somebody has asked whether a lock has a holder. -/
  | probed (key : String) (held : Bool)
  deriving Repr

namespace Event

/-- The acquisition that succeeds with an event, and its lease. -/
def acquisition? : Event → Option (LockToken × Option Duration)
  | .tried token lease (.ok true) => some (token, lease)
  | .looked waiter .admitted => some (waiter.token, waiter.lease)
  | _ => none

/-- The owner name that an event brings into the room. -/
def newOwner? : Event → Option Owner
  | .tried token _ _ => some token.owner
  | .entered token _ _ _ => some token.owner
  | _ => none

/-- Whether an event ends the hold of a token: it is released, or its lock is freed by force. -/
def Ends (event : Event) (token : LockToken) : Prop :=
  (∃ freed, event = .released token freed) ∨ ∃ freed, event = .forced token.key freed

theorem ends_released_iff {token token' : LockToken} {freed : Bool} :
    (Event.released token freed).Ends token' ↔ token = token' := by simp [Ends]

theorem ends_forced_iff {key : String} {token : LockToken} {freed : Bool} :
    (Event.forced key freed).Ends token ↔ key = token.key := by simp [Ends]

/-- Whether an event neither brings in a waiter nor ends a hold. -/
def isQuiet : Event → Bool
  | .tried .. | .looked .. | .left _ | .probed .. => true
  | .entered .. | .released .. | .forced .. => false

theorem not_ends_of_isQuiet {event : Event} (h : event.isQuiet = true) (token : LockToken) :
    ¬event.Ends token := by
  rintro (⟨freed, rfl⟩ | ⟨freed, rfl⟩) <;> cases h

theorem isQuiet_of_acquisition {event : Event} {token : LockToken} {lease : Option Duration}
    (h : event.acquisition? = some (token, lease)) : event.isQuiet = true := by
  unfold acquisition? at h
  split at h
  · rfl
  · rfl
  · cases h

end Event

/-- An event takes a room to the next one. -/
inductive Happens (now : Instant) (room : Room) : Event → Room → Prop
  | tried (token : LockToken) (lease : Option Duration) :
      Happens now room (.tried token lease (room.tryAcquire now token lease).1)
        (room.tryAcquire now token lease).2
  | entered {token : LockToken} {kind : Kind} {wait : Duration} {lease : Option Duration}
      {next : Room} (h : room.enter now token kind wait lease = .ok next) :
      Happens now room (.entered token kind wait lease) next
  | looked {owner : Owner} {waiter : Waiter} (h : room.waiter? owner = some waiter) :
      Happens now room (.looked waiter (room.look now owner).1) (room.look now owner).2
  | left {owner : Owner} {waiter : Waiter} (h : room.waiter? owner = some waiter) :
      Happens now room (.left waiter) (room.leave owner)
  | released (token : LockToken) :
      Happens now room (.released token (room.release now token).1) (room.release now token).2
  | forced (key : String) :
      Happens now room (.forced key (room.forceRelease key).1) (room.forceRelease key).2
  | probed (key : String) :
      Happens now room (.probed key (room.isHeld now key).1) (room.isHeld now key).2

/-- Two waiters with the same request: it stays as it is for as long as they wait. -/
def Waiter.SameRequest (w waiter : Waiter) : Prop :=
  w.token = waiter.token ∧ w.kind = waiter.kind ∧ w.lease = waiter.lease

namespace Room

variable {room : Room} {now : Instant} {owner : Owner} {waiter : Waiter}

/-- The slot of a key. -/
def slot (room : Room) (key : String) : Slot := room.slots.slotOf key

/-- Whether others are told of a release does not matter to any slot. -/
theorem slot_release (token : LockToken) (key : String) :
    (room.release now token).2.slot key = (room.slots.release now token).2.slotOf key := by
  simp only [release]
  split <;> rfl

/-- A waiter that is found is in the room, and has the owner name that it was looked up by. -/
theorem mem_of_waiter? (h : room.waiter? owner = some waiter) :
    waiter ∈ room.waiters ∧ waiter.token.owner = owner :=
  ⟨List.mem_of_find?_eq_some h, by simpa using List.find?_some h⟩

theorem mem_without : waiter ∈ room.without owner ↔
    waiter ∈ room.waiters ∧ waiter.token.owner ≠ owner := by simp [without]

/-- A wait begins if the clock can represent its deadline. -/
theorem enter_eq_ok_iff {token : LockToken} {kind : Kind} {wait : Duration}
    {lease : Option Duration} {next : Room} :
    room.enter now token kind wait lease = .ok next ↔
      now + wait < Instant.limit ∧ next =
        ⟨match kind with
          | .exclusive => room.slots
          | .fair => room.slots.enqueue token,
        room.waiters ++ [{ token, kind, lease, deadline := now + wait, wakeAt := now,
                           notified := false, leaving := false }]⟩ := by
  unfold enter Instant.after
  split
  · rename_i hlimit
    exact ⟨fun h => ⟨hlimit, (Except.ok.inj h).symm⟩, fun h => congrArg Except.ok h.2.symm⟩
  · rename_i hlimit
    exact ⟨nofun, fun h => absurd h.1 hlimit⟩

/-- The slot of a waiter that is let in: it holds the lock, and a fair one has left the queue. -/
def admittedSlot (slot : Slot) (now : Instant) (owner : Owner) (waiter : Waiter) : Slot :=
  (slot.callUp waiter.kind).hold now owner waiter.lease

/-- A waiter that has given up does not look at its slot any more. -/
theorem look_of_leaving (now : Instant) (h : room.waiter? owner = some waiter)
    (hl : waiter.leaving = true) : room.look now owner = (.givesUp, room) := by
  simp only [look, h]
  exact if_pos hl

/-- The course of a look: a waiter that its slot admits leaves the room, with the lock or, if the
clock cannot represent the end of its lease, with a crash. One whose time is over gives up, and any
other one waits on. -/
theorem look_cases (now : Instant) (h : room.waiter? owner = some waiter)
    (hl : waiter.leaving = false) :
    let key := waiter.token.key
    let slot := (room.slot key).expireHolder now
    (slot.admits waiter.kind owner = true ∧
      (∀ span ∈ waiter.lease, now + span < Instant.limit) ∧ room.look now owner =
      (.admitted, ⟨room.slots.keep key (admittedSlot slot now owner waiter),
        room.without owner⟩)) ∨
    (slot.admits waiter.kind owner = true ∧
      (∃ span ∈ waiter.lease, Instant.limit ≤ now + span) ∧ room.look now owner =
      (.crashes .clockOverflow, ⟨room.slots.keep key (slot.callUp waiter.kind),
        room.without owner⟩)) ∨
    (slot.admits waiter.kind owner = false ∧ waiter.deadline ≤ now ∧ room.look now owner =
      (.givesUp, ⟨room.slots.keep key slot,
        room.without owner ++ [{ waiter with leaving := true }]⟩)) ∨
    (slot.admits waiter.kind owner = false ∧ now < waiter.deadline ∧ room.look now owner =
      (.waits, ⟨room.slots.keep key slot, room.without owner ++
        [{ waiter with wakeAt := slot.wakeAt waiter.deadline, notified := false }]⟩)) := by
  dsimp only
  simp only [look, h, slot, hl, Bool.false_eq_true, if_false]
  by_cases ha : ((room.slots.slotOf waiter.token.key).expireHolder now).admits waiter.kind owner
  · rw [if_pos ha]
    rcases now.fits_or_overflows waiter.lease with hfits | hover
    · exact .inl ⟨ha, hfits, by rw [Slot.take_of_fits _ _ hfits]; rfl⟩
    · exact .inr (.inl ⟨ha, hover, by rw [Slot.take_of_overflow _ _ hover]⟩)
  rw [if_neg ha]
  refine .inr (.inr ?_)
  by_cases hd : waiter.deadline ≤ now
  · exact .inl ⟨Bool.eq_false_iff.2 ha, hd, if_pos hd⟩
  · exact .inr ⟨Bool.eq_false_iff.2 ha, Nat.lt_of_not_le hd, if_neg hd⟩

/-- A waiter that is called up is one that its slot admits and that has not given up, and it leaves
the room. -/
theorem admits_of_called (h : room.waiter? owner = some waiter)
    (hcalled : (room.look now owner).1.isCalled = true) :
    ((room.slot waiter.token.key).expireHolder now).admits waiter.kind waiter.token.owner = true ∧
      waiter.leaving = false ∧ (room.look now owner).2.waiters = room.without owner := by
  obtain ⟨-, rfl⟩ := mem_of_waiter? h
  cases hl : waiter.leaving with
  | true =>
    rw [look_of_leaving now h hl] at hcalled
    cases hcalled
  | false =>
    rcases look_cases now h hl with ⟨ha, -, he⟩ | ⟨ha, -, he⟩ | ⟨-, -, he⟩ | ⟨-, -, he⟩
    · exact ⟨ha, rfl, by rw [he]⟩
    · exact ⟨ha, rfl, by rw [he]⟩
    all_goals
      rw [he] at hcalled
      cases hcalled

/-- A waiter that leaves gives up its place in the queue, if it has one. -/
theorem slot_leave (h : room.waiter? owner = some waiter) (key : String) :
    (room.leave owner).slot key =
      if waiter.kind = .fair ∧ waiter.token.key = key then
        (room.slot key).dequeue waiter.token.owner
      else room.slot key := by
  simp only [leave, h]
  cases hk : waiter.kind with
  | exclusive => simp [slot]
  | fair => simp [slot, notify, Slots.slotOf_dequeue]

/-- Being told of a change does not alter a request. -/
theorem mem_waiters_notify (h : waiter ∈ room.notify.waiters) :
    ∃ w ∈ room.waiters, w.SameRequest waiter := by
  simp only [notify, List.mem_map] at h
  obtain ⟨w, hw, rfl⟩ := h
  exact ⟨w, hw, rfl, rfl, rfl⟩

/-- Those who stay when a waiter leaves have the requests that they had. -/
theorem mem_waiters_leave (hw : waiter ∈ (room.leave owner).waiters) :
    ∃ w ∈ room.waiters, w.SameRequest waiter := by
  simp only [leave] at hw
  split at hw
  · exact ⟨waiter, hw, rfl, rfl, rfl⟩
  · split at hw
    · exact ⟨waiter, (mem_without.1 hw).1, rfl, rfl, rfl⟩
    · obtain ⟨w, hw, hsame⟩ := mem_waiters_notify hw
      exact ⟨w, (mem_without.1 hw).1, hsame⟩

/-- Those who stay when a waiter looks have the requests that they had. -/
theorem mem_waiters_look (now : Instant) (hw : waiter ∈ (room.look now owner).2.waiters) :
    ∃ w ∈ room.waiters, w.SameRequest waiter := by
  cases hfound : room.waiter? owner with
  | none =>
    simp only [look, hfound] at hw
    exact ⟨waiter, hw, rfl, rfl, rfl⟩
  | some w =>
    have hmem := (mem_of_waiter? hfound).1
    cases hl : w.leaving with
    | true =>
      rw [look_of_leaving now hfound hl] at hw
      exact ⟨waiter, hw, rfl, rfl, rfl⟩
    | false =>
      rcases look_cases now hfound hl with
        ⟨-, -, he⟩ | ⟨-, -, he⟩ | ⟨-, -, he⟩ | ⟨-, -, he⟩ <;> rw [he] at hw
      · exact ⟨waiter, (mem_without.1 hw).1, rfl, rfl, rfl⟩
      · exact ⟨waiter, (mem_without.1 hw).1, rfl, rfl, rfl⟩
      all_goals
        rcases List.mem_append.1 hw with hw | hw
        · exact ⟨waiter, (mem_without.1 hw).1, rfl, rfl, rfl⟩
        · obtain rfl := List.mem_singleton.1 hw
          exact ⟨w, hmem, rfl, rfl, rfl⟩

end Room

/-! ## The slot after an event -/

/-- The slot of a key after an event: an event on another key leaves it alone, and only taking,
freeing and forcing change more than a holder who has lapsed. -/
def Event.slotAfter (now : Instant) (key : String) (slot : Slot) : Event → Slot
  | .tried token lease answer =>
    if token.key = key then
      match answer with
      | .ok true => (slot.expireHolder now).hold now token.owner lease
      | _ => slot.expireHolder now
    else slot
  | .entered token kind _ _ =>
    if kind = .fair ∧ token.key = key then slot.enqueue token.owner else slot
  | .looked waiter outcome =>
    if waiter.token.key = key then
      match outcome with
      | .admitted => Room.admittedSlot (slot.expireHolder now) now waiter.token.owner waiter
      | .crashes _ => (slot.expireHolder now).callUp waiter.kind
      | _ => if waiter.leaving then slot else slot.expireHolder now
    else slot
  | .left waiter =>
    if waiter.kind = .fair ∧ waiter.token.key = key then slot.dequeue waiter.token.owner else slot
  | .released token freed =>
    if token.key = key then
      if freed then { slot.expireHolder now with holder := none } else slot.expireHolder now
    else slot
  | .forced forcedKey _ => if forcedKey = key then { slot with holder := none } else slot
  | .probed probedKey _ => if probedKey = key then slot.expireHolder now else slot

/-- The slot of a key after an event follows from the event and the slot before it. -/
theorem Happens.slot {now : Instant} {room next : Room} {event : Event}
    (h : Happens now room event next) (key : String) :
    next.slot key = event.slotAfter now key (room.slot key) := by
  cases h with
  | tried token lease =>
    exact room.slots.slotOf_tryAcquire now token lease key
  | @entered token kind wait lease next hentered =>
    obtain ⟨-, rfl⟩ := Room.enter_eq_ok_iff.1 hentered
    cases kind with
    | exclusive => simp [Room.slot, Event.slotAfter]
    | fair => simp [Room.slot, Event.slotAfter, Slots.slotOf_enqueue]
  | @looked owner waiter hw =>
    have howner := (Room.mem_of_waiter? hw).2
    cases hl : waiter.leaving with
    | true => simp [Room.look_of_leaving now hw hl, Event.slotAfter, hl]
    | false =>
      rcases Room.look_cases now hw hl with
        ⟨-, -, he⟩ | ⟨-, -, he⟩ | ⟨-, -, he⟩ | ⟨-, -, he⟩ <;>
        by_cases hk : waiter.token.key = key <;>
        simp [he, Event.slotAfter, Room.slot, Slots.slotOf_keep, howner, hl, hk]
  | @left owner waiter hw =>
    rw [Room.slot_leave hw]
    rfl
  | released token =>
    have hanswer : (room.release now token).1 = _ := room.slots.release_eq now token
    simp only [Event.slotAfter, hanswer]
    rw [Room.slot_release, Slots.slotOf_release]
    by_cases hk : token.key = key
    · subst hk
      rfl
    · simp only [if_neg hk, Room.slot]
  | forced forcedKey =>
    simp [Room.forceRelease, Room.slot, Event.slotAfter, Room.notify, Slots.slotOf_forceRelease]
  | probed probedKey => simp [Room.isHeld, Room.slot, Event.slotAfter, Slots.slotOf_isHeld]

/-! ## The holder after an event -/

section Holder

variable {now : Instant} {room next : Room} {event : Event}

/-- The two ways to acquire a lock for a lease whose end can be represented: without waiting, when
its slot is idle, and from the waiting room, when the slot admits the waiter. Holders who have
lapsed do not count. -/
theorem Happens.acquisition_cases (h : Happens now room event next) {token : LockToken}
    {lease : Option Duration} (hacq : event.acquisition? = some (token, lease)) :
    let slot := (room.slot token.key).expireHolder now
    (∀ span ∈ lease, now + span < Instant.limit) ∧
    ((event = .tried token lease (.ok true) ∧ slot.isIdle = true ∧ next.waiters = room.waiters) ∨
    ∃ waiter ∈ room.waiters, event = .looked waiter .admitted ∧ waiter.token = token ∧
      slot.admits waiter.kind token.owner = true ∧ next.waiters = room.without token.owner) := by
  cases h with
  | tried other lease' =>
    simp only [Room.tryAcquire] at hacq ⊢
    rcases room.slots.tryAcquire_cases now other lease' with
      ⟨hidle, hfits, he⟩ | ⟨-, -, he⟩ | ⟨-, he⟩ <;> rw [he] at hacq ⊢
    · cases hacq
      exact ⟨hfits, .inl ⟨rfl, hidle, trivial⟩⟩
    · cases hacq
    · cases hacq
  | @looked owner waiter hw =>
    obtain ⟨hmem, rfl⟩ := Room.mem_of_waiter? hw
    cases hl : waiter.leaving with
    | true => simp [Room.look_of_leaving now hw hl, Event.acquisition?] at hacq
    | false =>
      rcases Room.look_cases now hw hl with
        ⟨ha, hfits, he⟩ | ⟨-, -, he⟩ | ⟨-, -, he⟩ | ⟨-, -, he⟩ <;> rw [he] at hacq ⊢
      · cases hacq
        exact ⟨hfits, .inr ⟨waiter, hmem, rfl, rfl, ha, rfl⟩⟩
      all_goals cases hacq
  | _ => simp [Event.acquisition?] at hacq

/-- Whoever acquires a lock finds it without a holder, or with one whose lease has lapsed. -/
theorem Happens.free_of_acquisition (h : Happens now room event next) {token : LockToken}
    {lease : Option Duration} (hacq : event.acquisition? = some (token, lease)) :
    ((room.slot token.key).expireHolder now).holder = none := by
  rcases h.acquisition_cases hacq with ⟨-, ⟨-, hidle, -⟩ | ⟨waiter, -, -, -, hadmits, -⟩⟩
  · exact ((Slot.isIdle_iff _).1 hidle).1
  · simp only [Slot.admits, Bool.and_eq_true, Option.isNone_iff_eq_none] at hadmits
    exact hadmits.1

/-- Whoever acquires a lock holds it from then on for the span of the lease. -/
theorem Happens.holder_of_acquisition (h : Happens now room event next) {token : LockToken}
    {lease : Option Duration} (hacq : event.acquisition? = some (token, lease)) :
    (next.slot token.key).holder = some ⟨token.owner, lease.map (now + ·)⟩ := by
  rw [h.slot]
  unfold Event.acquisition? at hacq
  split at hacq
  · cases hacq
    simp [Event.slotAfter, Slot.hold]
  · cases hacq
    simp [Event.slotAfter, Room.admittedSlot, Slot.hold]
  · cases hacq

/-- A holder whose lease has not lapsed stays the holder, unless its hold is ended. -/
theorem Happens.holder_persists (h : Happens now room event next) {key : String} {holder : Holder}
    (hh : (room.slot key).holder = some holder) (hlive : holder.hasLapsed now = false)
    (hends : ¬event.Ends ⟨key, holder.owner⟩) : (next.slot key).holder = some holder := by
  have hlive' : ((room.slot key).expireHolder now).holder = some holder :=
    (Slot.holder_expireHolder_eq_some _ _).2 ⟨hh, hlive⟩
  have hfree : ∀ token lease, event.acquisition? = some (token, lease) → token.key ≠ key := by
    rintro token lease hacq rfl
    rw [h.free_of_acquisition hacq] at hlive'
    cases hlive'
  have hslot := h.slot key
  cases h with
  | tried token lease =>
    rw [hslot]
    simp only [Event.slotAfter]
    split
    · rename_i hk
      split
      · rename_i ht
        exact absurd hk (hfree token lease (by rw [ht]; rfl))
      · exact hlive'
    · exact hh
  | entered =>
    rw [hslot]
    simp only [Event.slotAfter]
    split <;> exact hh
  | @looked owner waiter hw =>
    rw [hslot]
    simp only [Event.slotAfter]
    split
    · rename_i hk
      split
      · rename_i ha
        exact absurd hk (hfree waiter.token waiter.lease (by rw [ha]; rfl))
      · rw [Slot.holder_callUp]
        exact hlive'
      · split <;> assumption
    · exact hh
  | @left owner waiter hw =>
    rw [hslot]
    simp only [Event.slotAfter]
    split <;> exact hh
  | released token =>
    rw [hslot]
    simp only [Event.slotAfter]
    split
    · rename_i hk
      subst hk
      have howner : holder.owner ≠ token.owner := fun he =>
        hends (Event.ends_released_iff.2 (by rw [he]))
      have hfreed : (room.release now token).1 = false := by
        refine (room.slots.release_eq now token).trans ?_
        change ((room.slot token.key).expireHolder now).holder.any _ = false
        simp [hlive', howner]
      rw [hfreed]
      exact hlive'
    · exact hh
  | forced forcedKey =>
    have hk : forcedKey ≠ key := fun he => hends (Event.ends_forced_iff.2 he)
    rw [hslot]
    simp only [Event.slotAfter, if_neg hk, hh]
  | probed probedKey =>
    rw [hslot]
    simp only [Event.slotAfter]
    split <;> assumption

/-- A holder has either held the lock before, and the event has not ended that, or acquires the lock
with the event. -/
theorem Happens.holder_origin (h : Happens now room event next) {key : String} {holder : Holder}
    (hh : (next.slot key).holder = some holder) :
    ((room.slot key).holder = some holder ∧ ¬event.Ends ⟨key, holder.owner⟩) ∨
      ∃ lease, event.acquisition? = some (⟨key, holder.owner⟩, lease) ∧
        holder.expiresAt = lease.map (now + ·) := by
  have hkept (hk : ((room.slot key).expireHolder now).holder = some holder) :
      (room.slot key).holder = some holder := ((Slot.holder_expireHolder_eq_some _ _).1 hk).1
  rw [h.slot key] at hh
  cases h with
  | tried token lease =>
    simp only [Event.slotAfter] at hh
    split at hh
    · rename_i hk
      subst hk
      split at hh
      · rename_i ht
        cases hh
        exact .inr ⟨lease, by rw [ht]; rfl, rfl⟩
      · exact .inl ⟨hkept hh, by simp [Event.Ends]⟩
    · exact .inl ⟨hh, by simp [Event.Ends]⟩
  | entered =>
    simp only [Event.slotAfter] at hh
    refine .inl ⟨?_, by simp [Event.Ends]⟩
    split at hh <;> exact hh
  | @looked owner waiter hw =>
    simp only [Event.slotAfter] at hh
    split at hh
    · rename_i hk
      subst hk
      split at hh
      · rename_i ha
        cases hh
        exact .inr ⟨waiter.lease, by rw [ha]; rfl, rfl⟩
      · rw [Slot.holder_callUp] at hh
        exact .inl ⟨hkept hh, by simp [Event.Ends]⟩
      · refine .inl ⟨?_, by simp [Event.Ends]⟩
        split at hh
        · exact hh
        · exact hkept hh
    · exact .inl ⟨hh, by simp [Event.Ends]⟩
  | @left owner waiter hw =>
    simp only [Event.slotAfter] at hh
    refine .inl ⟨?_, by simp [Event.Ends]⟩
    split at hh <;> exact hh
  | released token =>
    simp only [Event.slotAfter] at hh
    split at hh
    · rename_i hk
      subst hk
      split at hh
      · cases hh
      · rename_i hfreed
        refine .inl ⟨hkept hh, fun he => hfreed ?_⟩
        rw [Event.ends_released_iff] at he
        refine (room.slots.release_eq now token).trans ?_
        change ((room.slot token.key).expireHolder now).holder.any _ = true
        simp [hh, congrArg LockToken.owner he]
    · rename_i hk
      refine .inl ⟨hh, fun he => hk ?_⟩
      rw [Event.ends_released_iff] at he
      rw [he]
  | forced forcedKey =>
    simp only [Event.slotAfter] at hh
    split at hh
    · cases hh
    · rename_i hk
      exact .inl ⟨hh, fun he => hk (Event.ends_forced_iff.1 he)⟩
  | probed probedKey =>
    simp only [Event.slotAfter] at hh
    refine .inl ⟨?_, by simp [Event.Ends]⟩
    split at hh
    · exact hkept hh
    · exact hh

end Holder

/-! ## The waiters after an event -/

section Waiters

variable {now : Instant} {room next : Room} {event : Event}

/-- Whoever waits after an event has waited before, with the same request, or begins to wait with
the event. -/
theorem Happens.waiter_origin (h : Happens now room event next) {waiter : Waiter}
    (hw : waiter ∈ next.waiters) :
    (∃ w ∈ room.waiters, w.SameRequest waiter) ∨
      ∃ wait, event = .entered waiter.token waiter.kind wait waiter.lease := by
  cases h with
  | tried | probed => exact .inl ⟨waiter, hw, rfl, rfl, rfl⟩
  | @entered token kind wait lease next hentered =>
    obtain ⟨-, rfl⟩ := Room.enter_eq_ok_iff.1 hentered
    rcases List.mem_append.1 hw with hw | hw
    · exact .inl ⟨waiter, hw, rfl, rfl, rfl⟩
    · obtain rfl := List.mem_singleton.1 hw
      exact .inr ⟨wait, rfl⟩
  | looked => exact .inl (Room.mem_waiters_look now hw)
  | left => exact .inl (Room.mem_waiters_leave hw)
  | released token =>
    simp only [Room.release] at hw
    split at hw
    · exact .inl (Room.mem_waiters_notify hw)
    · exact .inl ⟨waiter, hw, rfl, rfl, rfl⟩
  | forced key => exact .inl (Room.mem_waiters_notify hw)

/-- Whoever acquires a lock under a new name, or from the waiting room, does not wait any more. -/
theorem Happens.not_waiting_of_acquisition (h : Happens now room event next) {token : LockToken}
    {lease : Option Duration} (hacq : event.acquisition? = some (token, lease))
    (hfresh : ∀ w ∈ room.waiters, event.newOwner? ≠ some w.token.owner)
    {waiter : Waiter} (hw : waiter ∈ next.waiters) : waiter.token.owner ≠ token.owner := by
  rcases h.acquisition_cases hacq with ⟨-, ⟨rfl, -, he⟩ | ⟨w, -, -, -, -, he⟩⟩
  · rw [he] at hw
    exact fun howner => hfresh waiter hw (by rw [howner]; rfl)
  · rw [he] at hw
    exact (Room.mem_without.1 hw).2

end Waiters

end Turnstile.Lock
