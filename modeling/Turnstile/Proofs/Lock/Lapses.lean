import Turnstile.Proofs.Lock.Events

/-!
# Holders that cease to hold

Seen from outside, a lock loses its holder at the very instant at which the lease lapses. That a
lapsed holder stays on record until somebody comes across it shows in one place only: freeing a
lock by force answers that it had a holder, if the record of a lapsed one is still there. Whether
it is depends on who has looked since.
-/

namespace Turnstile.Lock

/-- What is asked of a room, or time that passes. An acquisition that waits enters, looks, and in
the end leaves unless it has been let in; between these anything else may happen. -/
inductive Request
  | elapse (span : Duration)
  | tryAcquire (token : LockToken) (lease : Option Duration)
  | enter (token : LockToken) (kind : Kind) (wait : Duration) (lease : Option Duration)
  | look (owner : Owner)
  | leave (owner : Owner)
  | release (token : LockToken)
  | forceRelease (key : String)
  | isHeld (key : String)
  deriving DecidableEq

/-- What is answered. -/
inductive Answer
  | nothing
  | flag (answer : Bool)
  | outcome (look : Look)
  | crashed (crash : Crash)
  deriving DecidableEq

/-- What is answered to an attempt to take a lock without waiting. -/
def Answer.ofAttempt : Except Crash Bool → Answer
  | .ok taken => .flag taken
  | .error crash => .crashed crash

/-- Whether a lock is freed by force. -/
def Request.isForced : Request → Bool
  | .forceRelease _ => true
  | _ => false

/-- Whether only a question is asked. -/
def Request.isQuestion : Request → Bool
  | .isHeld _ => true
  | _ => false

/-- A room at an instant. -/
structure TimedRoom where
  now : Instant
  room : Room

namespace TimedRoom

/-- An empty room at the beginning of time. -/
def start : TimedRoom := ⟨0, .empty⟩

/-- What is answered to a request, and the room that it leaves. -/
def step (timed : TimedRoom) : Request → Answer × TimedRoom
  | .elapse span => (.nothing, { timed with now := timed.now + span })
  | .tryAcquire token lease =>
    let result := timed.room.tryAcquire timed.now token lease
    (.ofAttempt result.1, { timed with room := result.2 })
  | .enter token kind wait lease =>
    match timed.room.enter timed.now token kind wait lease with
    | .ok room => (.nothing, { timed with room })
    | .error crash => (.crashed crash, timed)
  | .look owner =>
    let result := timed.room.look timed.now owner
    (.outcome result.1, { timed with room := result.2 })
  | .leave owner => (.nothing, { timed with room := timed.room.leave owner })
  | .release token =>
    let result := timed.room.release timed.now token
    (.flag result.1, { timed with room := result.2 })
  | .forceRelease key =>
    let result := timed.room.forceRelease key
    (.flag result.1, { timed with room := result.2 })
  | .isHeld key =>
    let result := timed.room.isHeld timed.now key
    (.flag result.1, { timed with room := result.2 })

/-- The room that some requests leave. -/
def play (timed : TimedRoom) (requests : List Request) : TimedRoom :=
  requests.foldl (fun timed request => (timed.step request).2) timed

/-- Whether a holder is on record whose lease has lapsed. -/
def hasLapsedHolder (timed : TimedRoom) (key : String) : Bool :=
  (timed.room.slot key).holder.any (·.hasLapsed timed.now)

end TimedRoom

/-! ## A room whose holders vanish -/

/-- A room in which a holder ceases to be one when the lease lapses: nobody holds a lock whose
time is over. -/
@[ext] structure PromptRoom where
  now : Instant
  slot : String → Slot
  waiters : List Waiter
  current : ∀ key holder, (slot key).holder = some holder → holder.hasLapsed now = false

namespace PromptRoom

/-- The room at an instant, without holders whose time is over. -/
def keep (now : Instant) (slot : String → Slot) (waiters : List Waiter) : PromptRoom where
  now := now
  slot key := (slot key).expireHolder now
  waiters := waiters
  current _ _ h := ((Slot.holder_expireHolder_eq_some _ _).1 h).2

/-- A room with nothing held and nobody in it, at the beginning of time. -/
def start : PromptRoom := keep 0 (fun _ => .idle) []

variable (room : PromptRoom)

/-- The waiter of an owner name. -/
def waiter? (owner : Owner) : Option Waiter := room.waiters.find? (·.token.owner = owner)

/-- The room with another slot under a key. -/
def put (key : String) (slot : Slot) (waiters : List Waiter) : PromptRoom :=
  keep room.now (fun probe => if key = probe then slot else room.slot probe) waiters

/-- The waiters after all have been told of a change. -/
def told (waiters : List Waiter) : List Waiter := waiters.map ({ · with notified := true })

/-- Lets a waiter look at its slot. Whoever holds the lock holds it now. -/
def look (waiter : Waiter) : Look × PromptRoom :=
  let owner := waiter.token.owner
  let slot := room.slot waiter.token.key
  let others := room.waiters.filter (·.token.owner != owner)
  if waiter.leaving then (.givesUp, room)
  else if slot.admits waiter.kind owner then
    let slot := slot.callUp waiter.kind
    match slot.take room.now owner waiter.lease with
    | .ok taken => (.admitted, room.put waiter.token.key taken others)
    | .error crash => (.crashes crash, room.put waiter.token.key slot others)
  else if waiter.deadline ≤ room.now then
    (.givesUp, keep room.now room.slot (others ++ [{ waiter with leaving := true }]))
  else
    (.waits, keep room.now room.slot
      (others ++ [{ waiter with wakeAt := slot.wakeAt waiter.deadline, notified := false }]))

/-- Takes a waiter out of the room. -/
def leave (waiter : Waiter) : PromptRoom :=
  let others := room.waiters.filter (·.token.owner != waiter.token.owner)
  match waiter.kind with
  | .exclusive => keep room.now room.slot others
  | .fair =>
    let slot := (room.slot waiter.token.key).dequeue waiter.token.owner
    room.put waiter.token.key slot (told others)

/-- What is answered to a request, and the room that it leaves. Only as time passes, and of a lock
that is taken for no time at all, is it asked whether a lease has lapsed. -/
def step : Request → Answer × PromptRoom
  | .elapse span => (.nothing, keep (room.now + span) room.slot room.waiters)
  | .tryAcquire token lease =>
    let slot := room.slot token.key
    if slot.isIdle then
      match slot.take room.now token.owner lease with
      | .ok taken => (.flag true, room.put token.key taken room.waiters)
      | .error crash => (.crashed crash, room)
    else (.flag false, room)
  | .enter token kind wait lease =>
    let slot := match kind with
      | .exclusive => room.slot token.key
      | .fair => (room.slot token.key).enqueue token.owner
    match room.now.after wait with
    | .ok deadline => (.nothing, room.put token.key slot (room.waiters ++
        [{ token, kind, lease, deadline, wakeAt := room.now,
           notified := false, leaving := false }]))
    | .error crash => (.crashed crash, room)
  | .look owner =>
    match room.waiter? owner with
    | none => (.outcome .gone, room)
    | some waiter => (.outcome (room.look waiter).1, (room.look waiter).2)
  | .leave owner =>
    match room.waiter? owner with
    | none => (.nothing, room)
    | some waiter => (.nothing, room.leave waiter)
  | .release token =>
    let slot := room.slot token.key
    if slot.holder.any (·.owner == token.owner) then
      (.flag true, room.put token.key { slot with holder := none } (told room.waiters))
    else (.flag false, room)
  | .forceRelease key =>
    let slot := room.slot key
    (.flag slot.holder.isSome, room.put key { slot with holder := none } (told room.waiters))
  | .isHeld key => (.flag (room.slot key).holder.isSome, room)

/-- The room that some requests leave. -/
def play (requests : List Request) : PromptRoom :=
  requests.foldl (fun room request => (room.step request).2) room

end PromptRoom

/-- The same room with holders that vanish. -/
def TimedRoom.prompt (timed : TimedRoom) : PromptRoom :=
  .keep timed.now timed.room.slot timed.room.waiters

/-! ## Lapsed holders are no holders -/

/-- A lease that has lapsed stays so. -/
theorem Holder.hasLapsed_later {holder : Holder} {now later : Instant} (hle : now ≤ later)
    (h : holder.hasLapsed now = true) : holder.hasLapsed later = true := by
  simp only [hasLapsed, Option.any_eq_true, decide_eq_true_eq] at h ⊢
  obtain ⟨expiry, hexpiry, hlapsed⟩ := h
  exact ⟨expiry, hexpiry, Nat.le_trans hlapsed hle⟩

namespace Slot

variable (slot : Slot) {now later : Instant}

/-- Whether a lapsed holder is taken off the record early or late makes no difference. -/
theorem expireHolder_later (hle : now ≤ later) :
    (slot.expireHolder now).expireHolder later = slot.expireHolder later := by
  obtain ⟨holder, queue⟩ := slot
  cases holder with
  | none => rfl
  | some holder =>
    cases hlapsed : holder.hasLapsed now with
    | false => simp [expireHolder, Option.filter, hlapsed]
    | true =>
      have hlater : holder.hasLapsed later = true := holder.hasLapsed_later hle hlapsed
      simp [expireHolder, Option.filter, hlapsed, hlater]

@[simp] theorem expireHolder_expireHolder :
    (slot.expireHolder now).expireHolder now = slot.expireHolder now :=
  slot.expireHolder_later (Nat.le_refl now)

/-- A holder was on record if there is one, or if there is a lapsed one. -/
theorem isSome_holder (now : Instant) :
    slot.holder.isSome =
      ((slot.expireHolder now).holder.isSome || slot.holder.any (·.hasLapsed now)) := by
  obtain ⟨holder, queue⟩ := slot
  cases holder with
  | none => rfl
  | some holder =>
    cases hlapsed : holder.hasLapsed now with
    | false => simp [expireHolder, Option.filter, hlapsed]
    | true => simp [expireHolder, Option.filter, hlapsed]

end Slot

namespace PromptRoom

/-- Rooms are the same if they have the same holders that have not lapsed. -/
theorem keep_eq {now : Instant} {slot slot' : String → Slot} {waiters : List Waiter}
    (h : ∀ key, (slot key).expireHolder now = (slot' key).expireHolder now) :
    keep now slot waiters = keep now slot' waiters :=
  PromptRoom.ext rfl (funext h) rfl

end PromptRoom

/-! ## Step by step -/

namespace TimedRoom

variable (timed : TimedRoom)

/-- A change of one slot, and of those who wait. -/
theorem prompt_put {room : Room} (key : String) (slot : Slot) (waiters : List Waiter)
    (hwaiters : room.waiters = waiters)
    (hkey : (room.slot key).expireHolder timed.now = slot.expireHolder timed.now)
    (hother : ∀ probe, key ≠ probe →
      (room.slot probe).expireHolder timed.now = (timed.room.slot probe).expireHolder timed.now) :
    prompt { timed with room } = timed.prompt.put key slot waiters := by
  subst hwaiters
  refine PromptRoom.keep_eq fun probe => ?_
  by_cases hk : key = probe
  · subst hk
    rw [if_pos rfl, hkey]
  · rw [if_neg hk, hother probe hk]
    exact (Slot.expireHolder_expireHolder _).symm

/-- A change that only takes lapsed holders off the record. -/
theorem prompt_same {room : Room}
    (hslot : ∀ probe, (room.slot probe).expireHolder timed.now =
      (timed.room.slot probe).expireHolder timed.now)
    (hwaiters : room.waiters = timed.room.waiters) :
    prompt { timed with room } = timed.prompt := by
  unfold prompt
  dsimp only
  rw [hwaiters]
  exact PromptRoom.keep_eq hslot

theorem prompt_elapse (span : Duration) :
    prompt { timed with now := timed.now + span } =
      .keep (timed.now + span) timed.prompt.slot timed.room.waiters := by
  refine PromptRoom.keep_eq fun key => ?_
  exact ((timed.room.slot key).expireHolder_later (Nat.le_add_right timed.now span)).symm

/-- An attempt to take a lock goes as it does where holders vanish. -/
theorem tryAcquire_eq (token : LockToken) (lease : Option Duration) :
    (timed.step (.tryAcquire token lease)).1 = (timed.prompt.step (.tryAcquire token lease)).1 ∧
      (timed.step (.tryAcquire token lease)).2.prompt =
        (timed.prompt.step (.tryAcquire token lease)).2 := by
  have hsame : prompt { timed with room := ⟨timed.room.slots.keep token.key
      ((timed.room.slot token.key).expireHolder timed.now), timed.room.waiters⟩ } =
      timed.prompt := by
    refine timed.prompt_same (fun probe => ?_) rfl
    change (Slots.slotOf (Slots.keep ..) probe).expireHolder timed.now = _
    rw [Slots.slotOf_keep]
    split
    · rename_i hk
      subst hk
      exact Slot.expireHolder_expireHolder _
    · rfl
  simp only [step, PromptRoom.step]
  rcases timed.room.slots.tryAcquire_cases timed.now token lease with
    ⟨hidle, hfits, he⟩ | ⟨hidle, hover, he⟩ | ⟨hbusy, he⟩
  · change (timed.prompt.slot token.key).isIdle = true at hidle
    change ∀ span ∈ lease, timed.prompt.now + span < Instant.limit at hfits
    rw [if_pos hidle, Slot.take_of_fits _ _ hfits, Room.tryAcquire, he]
    refine ⟨rfl, timed.prompt_put token.key _ _ rfl ?_ fun probe hk => ?_⟩
    · change (Slots.slotOf (Slots.keep ..) token.key).expireHolder timed.now = _
      rw [Slots.slotOf_keep, if_pos rfl]
      rfl
    · change (Slots.slotOf (Slots.keep ..) probe).expireHolder timed.now = _
      rw [Slots.slotOf_keep, if_neg hk]
      rfl
  · change (timed.prompt.slot token.key).isIdle = true at hidle
    change ∃ span ∈ lease, Instant.limit ≤ timed.prompt.now + span at hover
    rw [if_pos hidle, Slot.take_of_overflow _ _ hover, Room.tryAcquire, he]
    exact ⟨rfl, hsame⟩
  · change (timed.prompt.slot token.key).isIdle = false at hbusy
    rw [if_neg (Bool.eq_false_iff.1 hbusy), Room.tryAcquire, he]
    exact ⟨rfl, hsame⟩

/-- Whoever begins to wait does so as where holders vanish. -/
theorem enter_eq (token : LockToken) (kind : Kind) (wait : Duration) (lease : Option Duration) :
    (timed.step (.enter token kind wait lease)).1 =
        (timed.prompt.step (.enter token kind wait lease)).1 ∧
      (timed.step (.enter token kind wait lease)).2.prompt =
        (timed.prompt.step (.enter token kind wait lease)).2 := by
  have hnow : timed.prompt.now = timed.now := rfl
  simp only [step, PromptRoom.step, Room.enter, hnow]
  cases timed.now.after wait with
  | error crash => exact ⟨rfl, rfl⟩
  | ok deadline =>
    refine ⟨rfl, ?_⟩
    cases kind with
    | exclusive =>
      refine timed.prompt_put token.key _ _ rfl ?_ fun probe hk => rfl
      exact (Slot.expireHolder_expireHolder _).symm
    | fair =>
      refine timed.prompt_put token.key _ _ rfl ?_ fun probe hk => ?_
      · change (Slots.slotOf (timed.room.slots.enqueue token) token.key).expireHolder timed.now = _
        rw [Slots.slotOf_enqueue, if_pos rfl]
        exact (Slot.expireHolder_expireHolder _).symm
      · change (Slots.slotOf (timed.room.slots.enqueue token) probe).expireHolder timed.now = _
        rw [Slots.slotOf_enqueue, if_neg hk]
        rfl

/-- A look lets in, sends back and gives up whom it does where holders vanish. -/
theorem look_eq {owner : Owner} {waiter : Waiter} (h : timed.room.waiter? owner = some waiter) :
    (timed.room.look timed.now owner).1 = (timed.prompt.look waiter).1 ∧
      prompt { timed with room := (timed.room.look timed.now owner).2 } =
        (timed.prompt.look waiter).2 := by
  obtain ⟨-, rfl⟩ := Room.mem_of_waiter? h
  unfold PromptRoom.look
  dsimp only
  cases hl : waiter.leaving with
  | true =>
    rw [Room.look_of_leaving timed.now h hl]
    exact ⟨rfl, rfl⟩
  | false =>
    have hsame (waiters : List Waiter) :
        prompt { timed with room := ⟨timed.room.slots.keep waiter.token.key
          ((timed.room.slot waiter.token.key).expireHolder timed.now), waiters⟩ } =
        .keep timed.now timed.prompt.slot waiters := by
      refine PromptRoom.keep_eq fun probe => ?_
      change (Slots.slotOf (Slots.keep ..) probe).expireHolder timed.now = _
      rw [Slots.slotOf_keep]
      split
      · rename_i hk
        subst hk
        rfl
      · exact (Slot.expireHolder_expireHolder _).symm
    rw [if_neg Bool.false_ne_true]
    have hput (slot : Slot) : prompt { timed with room := ⟨timed.room.slots.keep waiter.token.key
        slot, timed.room.without waiter.token.owner⟩ } = timed.prompt.put waiter.token.key slot
          (timed.room.without waiter.token.owner) := by
      refine timed.prompt_put waiter.token.key _ _ rfl ?_ fun probe hk => ?_
      · change (Slots.slotOf (Slots.keep ..) waiter.token.key).expireHolder timed.now = _
        rw [Slots.slotOf_keep, if_pos rfl]
      · change (Slots.slotOf (Slots.keep ..) probe).expireHolder timed.now = _
        rw [Slots.slotOf_keep, if_neg hk]
        rfl
    rcases Room.look_cases timed.now h hl with
      ⟨ha, hfits, he⟩ | ⟨ha, hover, he⟩ | ⟨ha, hd, he⟩ | ⟨ha, hd, he⟩
    · change (timed.prompt.slot waiter.token.key).admits _ _ = true at ha
      change ∀ span ∈ waiter.lease, timed.prompt.now + span < Instant.limit at hfits
      rw [he, if_pos ha, Slot.take_of_fits _ _ hfits]
      exact ⟨rfl, hput _⟩
    · change (timed.prompt.slot waiter.token.key).admits _ _ = true at ha
      change ∃ span ∈ waiter.lease, Instant.limit ≤ timed.prompt.now + span at hover
      rw [he, if_pos ha, Slot.take_of_overflow _ _ hover]
      exact ⟨rfl, hput _⟩
    · change (timed.prompt.slot waiter.token.key).admits _ _ = false at ha
      change waiter.deadline ≤ timed.prompt.now at hd
      rw [he, if_neg (Bool.eq_false_iff.1 ha), if_pos hd]
      exact ⟨rfl, hsame _⟩
    · change (timed.prompt.slot waiter.token.key).admits _ _ = false at ha
      change timed.prompt.now < waiter.deadline at hd
      rw [he, if_neg (Bool.eq_false_iff.1 ha), if_neg (Nat.not_le_of_lt hd), hl]
      exact ⟨rfl, hsame _⟩

theorem prompt_look (owner : Owner) :
    (timed.step (.look owner)).2.prompt = (timed.prompt.step (.look owner)).2 := by
  have hfound : timed.prompt.waiter? owner = timed.room.waiter? owner := rfl
  simp only [step, PromptRoom.step, hfound]
  cases h : timed.room.waiter? owner with
  | none =>
    have hgone : timed.room.look timed.now owner = (.gone, timed.room) := by
      simp only [Room.look, h]
    rw [hgone]
  | some waiter => exact (timed.look_eq h).2

theorem prompt_leave (owner : Owner) :
    (timed.step (.leave owner)).2.prompt = (timed.prompt.step (.leave owner)).2 := by
  have hfound : timed.prompt.waiter? owner = timed.room.waiter? owner := rfl
  simp only [step, PromptRoom.step, hfound]
  cases h : timed.room.waiter? owner with
  | none =>
    have hroom : timed.room.leave owner = timed.room := by simp only [Room.leave, h]
    rw [hroom]
  | some waiter =>
    have hslot := Room.slot_leave h
    obtain ⟨-, rfl⟩ := Room.mem_of_waiter? h
    dsimp only
    unfold PromptRoom.leave
    cases hkind : waiter.kind with
    | exclusive =>
      have hwaiters : (timed.room.leave waiter.token.owner).waiters =
          timed.room.without waiter.token.owner := by simp only [Room.leave, h, hkind]
      unfold prompt
      rw [hwaiters]
      refine PromptRoom.keep_eq fun probe => ?_
      rw [hslot]
      simp [hkind, PromptRoom.keep]
    | fair =>
      have hwaiters : (timed.room.leave waiter.token.owner).waiters =
          PromptRoom.told (timed.room.without waiter.token.owner) := by
        simp only [Room.leave, h, hkind]
        rfl
      refine timed.prompt_put waiter.token.key _ _ hwaiters ?_ fun probe hk => ?_
      · rw [hslot, if_pos ⟨hkind, rfl⟩]
        exact (Slot.expireHolder_expireHolder _).symm
      · rw [hslot, if_neg fun heq => hk heq.2]

theorem prompt_release (token : LockToken) :
    (timed.step (.release token)).2.prompt = (timed.prompt.step (.release token)).2 := by
  have hwaiters : (timed.room.release timed.now token).2.waiters =
      if (timed.prompt.slot token.key).holder.any (·.owner == token.owner) then
        PromptRoom.told timed.room.waiters
      else timed.room.waiters := by
    simp only [Room.release, Slots.release_eq]
    split
    · rename_i howned
      exact (if_pos howned).symm
    · rename_i howned
      exact (if_neg howned).symm
  simp only [step, PromptRoom.step]
  split
  · rename_i howned
    rw [if_pos howned] at hwaiters
    change Option.any _ ((timed.room.slots.slotOf token.key).expireHolder timed.now).holder = true
      at howned
    refine timed.prompt_put token.key _ _ hwaiters ?_ fun probe hk => ?_
    · rw [Room.slot_release, Slots.slotOf_release, if_pos rfl, if_pos howned]
      rfl
    · rw [Room.slot_release, Slots.slotOf_release, if_neg hk]
      rfl
  · rename_i hother
    rw [if_neg hother] at hwaiters
    refine timed.prompt_same (fun probe => ?_) hwaiters
    rw [Room.slot_release, Slots.slotOf_release]
    by_cases hk : token.key = probe
    · subst hk
      change ¬Option.any _ ((timed.room.slots.slotOf token.key).expireHolder timed.now).holder =
        true at hother
      simp only [if_pos, if_neg hother, Slot.expireHolder_expireHolder]
      rfl
    · simp only [if_neg hk]
      rfl

theorem prompt_forceRelease (key : String) :
    (timed.step (.forceRelease key)).2.prompt = (timed.prompt.step (.forceRelease key)).2 := by
  refine timed.prompt_put key _ _ rfl ?_ fun probe hk => ?_
  · change (Slots.slotOf (Slots.forceRelease ..).2 key).expireHolder timed.now = _
    rw [Slots.slotOf_forceRelease, if_pos rfl]
    rfl
  · change (Slots.slotOf (Slots.forceRelease ..).2 probe).expireHolder timed.now = _
    rw [Slots.slotOf_forceRelease, if_neg hk]
    rfl

theorem prompt_isHeld (key : String) :
    (timed.step (.isHeld key)).2.prompt = timed.prompt := by
  refine timed.prompt_same (fun probe => ?_) rfl
  change (Slots.slotOf (Slots.isHeld ..).2 probe).expireHolder timed.now = _
  rw [Slots.slotOf_isHeld]
  split
  · exact Slot.expireHolder_expireHolder _
  · rfl

/-- What a request leaves is the same whether lapsed holders stay on record or vanish. -/
theorem prompt_step (request : Request) :
    (timed.step request).2.prompt = (timed.prompt.step request).2 := by
  cases request with
  | elapse span => exact timed.prompt_elapse span
  | tryAcquire token lease => exact (timed.tryAcquire_eq token lease).2
  | enter token kind wait lease => exact (timed.enter_eq token kind wait lease).2
  | look owner => exact timed.prompt_look owner
  | leave owner => exact timed.prompt_leave owner
  | release token => exact timed.prompt_release token
  | forceRelease key => exact timed.prompt_forceRelease key
  | isHeld key => exact timed.prompt_isHeld key

/-- What is answered is the same, unless a lock is freed by force. -/
theorem answer_step {request : Request} (h : request.isForced = false) :
    (timed.step request).1 = (timed.prompt.step request).1 := by
  cases request with
  | elapse span => rfl
  | enter token kind wait lease => exact (timed.enter_eq token kind wait lease).1
  | forceRelease key => cases h
  | tryAcquire token lease => exact (timed.tryAcquire_eq token lease).1
  | look owner =>
    have hfound : timed.prompt.waiter? owner = timed.room.waiter? owner := rfl
    simp only [step, PromptRoom.step, hfound]
    cases h : timed.room.waiter? owner with
    | none =>
      have hgone : (timed.room.look timed.now owner).1 = .gone := by simp only [Room.look, h]
      rw [hgone]
    | some waiter => exact congrArg Answer.outcome (timed.look_eq h).1
  | leave owner =>
    have hfound : timed.prompt.waiter? owner = timed.room.waiter? owner := rfl
    simp only [step, PromptRoom.step, hfound]
    cases timed.room.waiter? owner with
    | none => rfl
    | some waiter => rfl
  | release token =>
    have hanswer : (timed.room.release timed.now token).1 = _ := Slots.release_eq ..
    simp only [step, PromptRoom.step, hanswer]
    split
    · rename_i howned
      exact congrArg Answer.flag howned
    · rename_i hother
      exact congrArg Answer.flag (Bool.eq_false_iff.2 hother)
  | isHeld key => exact congrArg Answer.flag (timed.room.slots.isHeld_eq timed.now key)

/-- A lock that is freed by force had a holder, or has one on record that has lapsed. -/
theorem answer_forceRelease (key : String) :
    (timed.step (.forceRelease key)).1 =
      .flag ((timed.prompt.slot key).holder.isSome || timed.hasLapsedHolder key) := by
  have hanswer : (timed.room.forceRelease key).1 = (timed.room.slot key).holder.isSome := by
    simp only [Room.forceRelease, Slots.forceRelease, Room.slot]
    split
    · rename_i hget
      rw [Slots.slotOf_of_get?_eq_none hget]
      rfl
    · rename_i slot hget
      rw [Slots.slotOf_of_get?_eq_some hget]
  exact congrArg Answer.flag (hanswer.trans ((timed.room.slot key).isSome_holder timed.now))

/-! ## Run by run -/

/-- After any requests the two rooms differ in lapsed holders only. -/
theorem prompt_play (requests : List Request) :
    (timed.play requests).prompt = timed.prompt.play requests := by
  induction requests generalizing timed with
  | nil => rfl
  | cons request more ih =>
    change ((timed.step request).2.play more).prompt = (timed.prompt.step request).2.play more
    rw [ih, timed.prompt_step]

end TimedRoom

/-- Where holders vanish, asking for one changes nothing. -/
theorem PromptRoom.play_without_questions (room : PromptRoom) (requests : List Request) :
    room.play requests = room.play (requests.filter (!·.isQuestion)) := by
  induction requests generalizing room with
  | nil => rfl
  | cons request more ih =>
    cases hask : request.isQuestion with
    | false =>
      rw [List.filter_cons_of_pos (by simp [hask])]
      exact ih _
    | true =>
      rw [List.filter_cons_of_neg (by simp [hask])]
      cases request with
      | isHeld key => exact ih room
      | _ => cases hask

namespace TimedRoom

/-- That lapsed holders stay on record shows only when a lock is freed by force. After any requests,
every other answer is the one of a room in which a holder vanishes as the lease lapses, and the same
waiters wait until the same instants; so it makes no difference how often anybody has asked for a
holder before. Freeing a lock by force answers that it had a holder if there is one or if a lapsed
one is still on record. -/
theorem answer_eq_prompt (requests : List Request) :
    let timed := start.play requests
    let prompt := PromptRoom.start.play requests
    timed.now = prompt.now ∧ timed.room.waiters = prompt.waiters ∧
    (∀ request, request.isForced = false → (timed.step request).1 = (prompt.step request).1) ∧
    (∀ key, (timed.step (.forceRelease key)).1 =
      .flag ((prompt.slot key).holder.isSome || timed.hasLapsedHolder key)) ∧
    ∀ others : List Request,
      others.filter (!·.isQuestion) = requests.filter (!·.isQuestion) →
      ∀ request, request.isForced = false →
        ((start.play others).step request).1 = (timed.step request).1 := by
  have hprompt (requests : List Request) :
      (start.play requests).prompt = PromptRoom.start.play requests := start.prompt_play requests
  have hanswer {request : Request} (hforced : request.isForced = false)
      (requests : List Request) : ((start.play requests).step request).1 =
        ((PromptRoom.start.play requests).step request).1 := by
    rw [← hprompt]
    exact answer_step _ hforced
  dsimp only
  refine ⟨?now, ?waiters, fun request hforced => hanswer hforced requests, fun key => ?forced,
    fun others hothers request hforced => ?inserted⟩
  case now =>
    rw [← hprompt]
    rfl
  case waiters =>
    rw [← hprompt]
    rfl
  case forced =>
    rw [← hprompt]
    exact answer_forceRelease _ key
  case inserted =>
    have hsame : PromptRoom.start.play others = PromptRoom.start.play requests := by
      rw [PromptRoom.play_without_questions, hothers, ← PromptRoom.play_without_questions]
    rw [hanswer hforced, hanswer hforced, hsame]

/-- A lock is taken for ten instants, and twenty go by. -/
def outlived : List Request := [.tryAcquire ⟨"k", "a"⟩ (some 10), .elapse 20]

/-- Nobody holds the lock any more, and yet freeing it by force answers that somebody does, unless
anybody has asked before. -/
theorem forced_after_lapse :
    ((start.play outlived).step (.forceRelease "k")).1 = .flag true ∧
    ((PromptRoom.start.play outlived).step (.forceRelease "k")).1 = .flag false ∧
    ((start.play (outlived ++ [.isHeld "k"])).step (.forceRelease "k")).1 = .flag false := by
  decide +kernel

end TimedRoom
end Turnstile.Lock
