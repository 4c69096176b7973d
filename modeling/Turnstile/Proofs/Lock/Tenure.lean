import Turnstile.Proofs.Lock.Course

/-!
# Tenure of a lock

An acquisition holds its lock until its token is released, its lock is freed by force, or
its lease lapses. The hold is followed from the acquisition through everything that has
happened since. Whatever that is, the slot's holder tells whether the hold goes on, and
the answers of the room depend on the holder alone.
-/

namespace Turnstile.Lock

/-- Whether an acquisition still holds its lock, going by what has happened since: nothing has
ended its hold, and its lease has not lapsed. -/
def StillHolds (later : History) (since now : Instant) (token : LockToken)
    (lease : Option Duration) : Prop :=
  (∀ x ∈ later, ¬x.2.Ends token) ∧ ∀ span ∈ lease, now < since + span

/-- What a room knows of an acquisition, given what has happened since. -/
structure Tenure (later : History) (since : Instant) (token : LockToken)
    (lease : Option Duration) (room : Room) : Prop where
  /-- It does not wait any more. -/
  gone : ∀ waiter ∈ room.waiters, waiter.token.owner ≠ token.owner
  /-- If it is on record, it is so with its own lease. -/
  expiry : ∀ holder, (room.slot token.key).holder = some holder → holder.owner = token.owner →
    holder.expiresAt = lease.map (since + ·)
  /-- Once its hold has been ended it is not on record any more. -/
  lost : (∃ x ∈ later, x.2.Ends token) →
    ∀ holder, (room.slot token.key).holder = some holder → holder.owner ≠ token.owner
  /-- It is on record as long as nothing has ended its hold and its lease has not lapsed. -/
  kept : (∀ x ∈ later, ¬x.2.Ends token) → (∀ x ∈ later, ∀ span ∈ lease, x.1 < since + span) →
    (room.slot token.key).holder = some ⟨token.owner, lease.map (since + ·)⟩

/-- A lease that ends later has not lapsed. -/
theorem hasLapsed_eq_false_iff (owner : Owner) {since now : Instant} {lease : Option Duration} :
    (Holder.mk owner (lease.map (since + ·))).hasLapsed now = false ↔
      ∀ span ∈ lease, now < since + span := by
  cases lease <;> simp [Holder.hasLapsed]

namespace Tenure

variable {history : History} {room next : Room} {now since : Instant} {event : Event}
  {token : LockToken} {lease : Option Duration} {later : History}

/-- A tenure begins with the acquisition. -/
theorem start (course : Course history room) (happens : Happens now room event next)
    (fresh : ∀ owner ∈ event.newOwner?, owner ∉ history.owners)
    (hacq : event.acquisition? = some (token, lease)) : Tenure [] now token lease next where
  gone waiter hw := happens.not_waiting_of_acquisition hacq
    (fun w hmem hnew => fresh _ hnew (course.owner_of_waiter hmem)) hw
  expiry holder hh _ := by
    rw [happens.holder_of_acquisition hacq] at hh
    cases hh
    rfl
  lost h := by simp at h
  kept _ _ := happens.holder_of_acquisition hacq

/-- An acquisition does not succeed twice. -/
theorem other_acquisition (h : Tenure later since token lease room)
    (happens : Happens now room event next) (hnew : event.newOwner? ≠ some token.owner)
    {other : LockToken} {span : Option Duration}
    (hacq : event.acquisition? = some (other, span)) : other.owner ≠ token.owner := by
  rcases happens.acquisition_cases hacq with ⟨-, ⟨rfl, -, -⟩ | ⟨waiter, hw, -, rfl, -, -⟩⟩
  · exact fun howner => hnew (by rw [← howner]; rfl)
  · exact h.gone waiter hw

/-- Every event takes a tenure further. -/
theorem goes_on (h : Tenure later since token lease room) (happens : Happens now room event next)
    (hnew : event.newOwner? ≠ some token.owner) :
    Tenure ((now, event) :: later) since token lease next := by
  -- The holder on record is either another one or has been on record before.
  have horigin (holder : Holder) (hh : (next.slot token.key).holder = some holder)
      (howner : holder.owner = token.owner) :
      (room.slot token.key).holder = some holder ∧ ¬event.Ends token := by
    rcases happens.holder_origin hh with ⟨hold, hends⟩ | ⟨span, hacq, -⟩
    · rw [howner] at hends
      exact ⟨hold, hends⟩
    · exact absurd howner (h.other_acquisition happens hnew hacq)
  refine ⟨?_, ?_, ?_, ?_⟩
  · intro waiter hw
    rcases happens.waiter_origin hw with ⟨w, hmem, hsame⟩ | ⟨wait, rfl⟩
    · rw [← hsame.1]
      exact h.gone w hmem
    · exact fun howner => hnew (by rw [← howner]; rfl)
  · intro holder hh howner
    exact h.expiry holder (horigin holder hh howner).1 howner
  · rintro ⟨x, hx, hends⟩ holder hh howner
    obtain ⟨hold, hnot⟩ := horigin holder hh howner
    rcases List.mem_cons.1 hx with rfl | hx
    · exact hnot hends
    · exact h.lost ⟨x, hx, hends⟩ holder hold howner
  · intro hends htime
    have hold := h.kept (fun x hx => hends x (List.mem_cons_of_mem _ hx))
      (fun x hx => htime x (List.mem_cons_of_mem _ hx))
    exact happens.holder_persists hold
      ((hasLapsed_eq_false_iff _).2 (htime _ List.mem_cons_self)) (hends _ List.mem_cons_self)

/-- Every acquisition of a course has its tenure. -/
theorem of_course {earlier : History} {acquiring : Event}
    (course : Course (later ++ (since, acquiring) :: earlier) room)
    (hacq : acquiring.acquisition? = some (token, lease)) :
    Tenure later since token lease room := by
  induction later generalizing room with
  | nil =>
    cases course with
    | event course happens fresh => exact .start course happens fresh hacq
  | cons x later ih =>
    cases course with
    | event course happens fresh =>
      have howner := course.owner_of_acquisition (List.mem_append_right _ List.mem_cons_self) hacq
      exact (ih course).goes_on happens fun hnew => fresh _ hnew howner

/-- Going by the holder on record, a hold that goes on is one that nothing has ended. -/
theorem holder_iff (h : Tenure later since token lease room) (hle : ∀ x ∈ later, x.1 ≤ now) :
    ((room.slot token.key).expireHolder now).holder.any (·.owner == token.owner) = true ↔
      StillHolds later since now token lease := by
  constructor
  · intro hany
    obtain ⟨holder, hh, howner⟩ := Option.any_eq_true _ _ |>.1 hany
    obtain ⟨hh, hlive⟩ := (Slot.holder_expireHolder_eq_some _ _).1 hh
    have howner : holder.owner = token.owner := beq_iff_eq.1 howner
    refine ⟨fun x hx hends => h.lost ⟨x, hx, hends⟩ holder hh howner, ?_⟩
    refine (hasLapsed_eq_false_iff holder.owner).1 ?_
    rw [← h.expiry holder hh howner]
    exact hlive
  · rintro ⟨hends, htime⟩
    have hh := h.kept hends fun x hx span hs => Nat.lt_of_le_of_lt (hle x hx) (htime span hs)
    rw [(Slot.holder_expireHolder_eq_some _ _).2 ⟨hh, (hasLapsed_eq_false_iff _).2 htime⟩]
    simp

end Tenure

/-- Whoever is on record as the holder of a lock has acquired it with the lease that is on record,
and nothing has ended the hold since. -/
theorem Course.exists_acquisition {history : History} {room : Room} (course : Course history room)
    {key : String} {holder : Holder} (hh : (room.slot key).holder = some holder) :
    ∃ later since acquiring earlier lease, history = later ++ (since, acquiring) :: earlier ∧
      acquiring.acquisition? = some (⟨key, holder.owner⟩, lease) ∧
      holder.expiresAt = lease.map (since + ·) ∧ ∀ x ∈ later, ¬x.2.Ends ⟨key, holder.owner⟩ := by
  induction course with
  | start => cases hh
  | @event history room next now event course happens fresh ih =>
    rcases happens.holder_origin hh with ⟨hold, hends⟩ | ⟨lease, hacq, hexpiry⟩
    · obtain ⟨later, since, acquiring, earlier, lease, rfl, hacq, hexpiry, hkept⟩ := ih hold
      refine ⟨(now, event) :: later, since, acquiring, earlier, lease, rfl, hacq, hexpiry, ?_⟩
      exact List.forall_mem_cons.2 ⟨hends, hkept⟩
    · exact ⟨[], now, event, history, lease, rfl, hacq, hexpiry, by simp⟩

/-- Whether an acquisition of a key still holds its lock, going by what has happened. -/
def History.Holds (history : History) (now : Instant) (key : String) : Prop :=
  ∃ later since acquiring earlier token lease, history = later ++ (since, acquiring) :: earlier ∧
    acquiring.acquisition? = some (token, lease) ∧ token.key = key ∧
    StillHolds later since now token lease

/-- In order of time, a lock has a holder exactly if an acquisition still holds it. -/
theorem Course.isHeld_iff {history : History} {room : Room} {now : Instant}
    (course : Course history room) (order : history.InOrder now) (key : String) :
    (room.isHeld now key).1 = true ↔ history.Holds now key := by
  have hanswer : (room.isHeld now key).1 = ((room.slot key).expireHolder now).holder.isSome :=
    room.slots.isHeld_eq now key
  rw [hanswer]
  constructor
  · intro hheld
    obtain ⟨holder, hh⟩ := Option.isSome_iff_exists.1 hheld
    obtain ⟨hh, hlive⟩ := (Slot.holder_expireHolder_eq_some _ _).1 hh
    obtain ⟨later, since, acquiring, earlier, lease, hsplit, hacq, hexpiry, hkept⟩ :=
      course.exists_acquisition hh
    refine ⟨later, since, acquiring, earlier, _, lease, hsplit, hacq, rfl, hkept, ?_⟩
    refine (hasLapsed_eq_false_iff holder.owner).1 ?_
    rw [← hexpiry]
    exact hlive
  · rintro ⟨later, since, acquiring, earlier, token, lease, rfl, hacq, rfl, hheld⟩
    have hle : ∀ x ∈ later, x.1 ≤ now := fun x hx => order.le (List.mem_append_left _ hx)
    obtain ⟨holder, hh, -⟩ :=
      (Option.any_eq_true _ _).1 (((Tenure.of_course course hacq).holder_iff hle).2 hheld)
    exact Option.isSome_iff_exists.2 ⟨holder, hh⟩

namespace Room

variable {room : Room} {now : Instant} {key : String} {holder : Holder}

/-- A lock with a live holder is held, nobody else takes it, and no token but the holder's frees
it. -/
theorem locked_of_holder (hh : ((room.slot key).expireHolder now).holder = some holder) :
    (∀ token lease, token.key = key → (room.tryAcquire now token lease).1 = .ok false) ∧
    (∀ owner waiter, room.waiter? owner = some waiter → waiter.token.key = key →
      (room.look now owner).1 ≠ .admitted) ∧
    (room.isHeld now key).1 = true ∧
    ∀ token, token.key = key → token.owner ≠ holder.owner →
      room.release now token = (false, room) := by
  have hfree {event : Event} {next : Room} {token : LockToken} {lease : Option Duration}
      (happens : Happens now room event next) (hk : token.key = key) :
      event.acquisition? ≠ some (token, lease) := by
    intro hacq
    have hnone := happens.free_of_acquisition hacq
    rw [hk, hh] at hnone
    cases hnone
  refine ⟨?_, ?_, ?_, ?_⟩
  · rintro token lease rfl
    refine (room.slots.tryAcquire_eq_false_iff now token lease).2 (Bool.eq_false_iff.2 ?_)
    intro hidle
    rw [Slot.isIdle_iff] at hidle
    cases hh.symm.trans hidle.1
  · intro owner waiter hw hk ha
    exact hfree (.looked hw) hk (by rw [ha]; rfl)
  · change (room.slots.isHeld now key).1 = true
    rw [Slots.isHeld_eq]
    exact Option.isSome_iff_exists.2 ⟨holder, hh⟩
  · rintro token rfl hne
    simp [release, Slots.release_of_other hh hne]

end Room

/-- An acquisition holds its lock until its token is released, the lock is freed by force, or the
lease lapses: until then nobody else takes the lock and no other token frees it. Its own token
frees the lock exactly if that comes first, and never again, whoever holds the lock then. -/
theorem Course.locked_until_first_end {history later earlier : History} {room : Room}
    {since now : Instant} {acquiring : Event} {token : LockToken} {lease : Option Duration}
    (course : Course history room) (order : history.InOrder now)
    (hsplit : history = later ++ (since, acquiring) :: earlier)
    (hacq : acquiring.acquisition? = some (token, lease)) :
    (StillHolds later since now token lease →
      (∀ other span, other.key = token.key → (room.tryAcquire now other span).1 = .ok false) ∧
      (∀ owner waiter, room.waiter? owner = some waiter → waiter.token.key = token.key →
        (room.look now owner).1 ≠ .admitted) ∧
      (room.isHeld now token.key).1 = true ∧
      ∀ other, other.key = token.key → other ≠ token →
        room.release now other = (false, room)) ∧
    ((room.release now token).1 = true ↔ StillHolds later since now token lease) := by
  subst hsplit
  have h := Tenure.of_course course hacq
  have hle : ∀ x ∈ later, x.1 ≤ now := fun x hx => order.le (List.mem_append_left _ hx)
  constructor
  · intro hheld
    obtain ⟨holder, hh, howner⟩ := (Option.any_eq_true _ _).1 ((h.holder_iff hle).2 hheld)
    have howner : holder.owner = token.owner := beq_iff_eq.1 howner
    obtain ⟨htry, hlook, hprobe, hrelease⟩ := Room.locked_of_holder hh
    refine ⟨htry, hlook, hprobe, fun other hk hne => hrelease other hk fun he => hne ?_⟩
    obtain ⟨key, owner⟩ := other
    change key = token.key at hk
    change owner = holder.owner at he
    rw [hk, he, howner]
  · rw [← h.holder_iff hle]
    exact Bool.eq_iff_iff.1 (room.slots.release_eq now token)

/-- A lock that is waited for while it is held: the lease lapses before the holder frees the lock,
so the waiter takes it, and from then on only the waiter's token frees it. -/
theorem Course.locked_until_first_end_of_lapsed_lease :
    ∃ room, Course
        [(12, .looked ⟨⟨"k", "b"⟩, .fair, none, 21, 1, false, false⟩ .admitted),
          (1, .entered ⟨"k", "b"⟩ .fair 20 none), (0, .tried ⟨"k", "a"⟩ (some 10) (.ok true))]
        room ∧
      room.release 13 ⟨"k", "a"⟩ = (false, room) ∧ (room.isHeld 13 "k").1 = true ∧
      (room.release 13 ⟨"k", "b"⟩).1 = true := by
  have tried := Course.start.event (@Happens.tried 0 _ ⟨"k", "a"⟩ (some 10)) (by decide)
  have entered := tried.event (@Happens.entered 1 _ ⟨"k", "b"⟩ .fair 20 none _ rfl) (by decide)
  have course := entered.event (@Happens.looked 12 _ "b" _ rfl) (by decide)
  obtain ⟨hlocked, hreleased⟩ :=
    @Course.locked_until_first_end _ [] _ _ 12 13 _ ⟨"k", "b"⟩ none course (by decide) rfl rfl
  have hheld : StillHolds [] 12 13 ⟨"k", "b"⟩ none := ⟨by simp, by simp⟩
  obtain ⟨-, -, hprobe, hrelease⟩ := hlocked hheld
  exact ⟨_, course, hrelease ⟨"k", "a"⟩ rfl (by decide), hprobe, hreleased.2 hheld⟩

end Turnstile.Lock
