import Turnstile.Proofs.Lock.Course

/-!
# Wake-ups of those who wait

A waiter looks again when it has been told of a change, or when its own wake-up comes, which
it sets by the holder that it has seen at its last look. Whoever takes a lock tells nobody. A
waiter that has seen a holder is woken when the lease of that holder lapses at the latest. A
fair waiter that has seen the lock free, with somebody ahead of it, sleeps until its deadline
unless it is told of something: it knows nothing of the lease of those who are let in before
it, nor of their crashes.
-/

namespace Turnstile.Lock

namespace Event

/-- Whether a waiter has looked at its slot with an event. One that has given up does not look any
more. -/
def isLookOf (owner : Owner) : Event → Bool
  | .looked waiter _ => waiter.token.owner == owner && !waiter.leaving
  | _ => false

/-- Whether everyone who waits is told of an event. -/
def isTold : Event → Bool
  | .released _ freed => freed
  | .forced .. => true
  | .left waiter => waiter.kind = .fair
  | _ => false

end Event

namespace History

variable (history : History)

/-- What has happened since a waiter last looked. -/
def sinceLook (owner : Owner) : History := history.takeWhile fun x => !x.2.isLookOf owner

/-- Whether somebody else has taken a waiter's lock since it last looked, for a lease that has
lapsed by now. -/
def Overtaken (token : LockToken) (now : Instant) : Prop :=
  ∃ x ∈ history.sinceLook token.owner, ∃ other span,
    x.2.acquisition? = some (other, some span) ∧ other.key = token.key ∧ x.1 + span ≤ now

/-- Whether another fair waiter has crashed over a waiter's lock since it last looked. -/
def CrashedOver (token : LockToken) : Prop :=
  ∃ x ∈ history.sinceLook token.owner, ∃ other crash,
    x.2 = .looked other (.crashes crash) ∧ other.kind = .fair ∧ other.token.key = token.key

variable {history} {now : Instant} {event : Event} {owner : Owner}

/-- What is not a look of the waiter's own counts as later than its last look. -/
theorem sinceLook_cons (h : event.isLookOf owner = false) :
    History.sinceLook ((now, event) :: history) owner = (now, event) :: history.sinceLook owner :=
  List.takeWhile_cons_of_pos (by simp [h])

end History

/-- The lease of a holder has lapsed if it had an end that has come. -/
theorem Holder.hasLapsed_eq_true_iff {holder : Holder} {now : Instant} :
    holder.hasLapsed now = true ↔ ∃ expiry ∈ holder.expiresAt, expiry ≤ now := by
  simp [hasLapsed, Option.any_eq_true]

/-! ## What a waiter relies on -/

/-- What a waiter relies on after what has happened: something that wakes it in time, or else
nothing but its deadline. -/
inductive Relies (history : History) (room : Room) (waiter : Waiter) : Prop
  /-- It only has to leave. -/
  | leaving (h : waiter.leaving = true)
  /-- It has been told of a change. -/
  | told (h : waiter.notified = true)
  /-- Its wake-up has come. -/
  | woken {x : Instant × Event} (hx : x ∈ history) (h : waiter.wakeAt ≤ x.1)
  /-- It wakes up when the lease of the holder on record lapses, or before. -/
  | watching {holder : Holder} (hh : (room.slot waiter.token.key).holder = some holder)
      (h : ∀ expiry ∈ holder.expiresAt, waiter.wakeAt ≤ expiry)
  /-- The lock is free, but somebody is ahead of it. -/
  | behind (hfair : waiter.kind = .fair) (hsleeps : waiter.wakeAt = waiter.deadline)
      (hfree : (room.slot waiter.token.key).holder = none)
      (hbehind : (room.slot waiter.token.key).queue.head? ≠ some waiter.token.owner)
  /-- The lock was free and has been taken since: the holder on record is one that it does not
  know of. -/
  | overtaken (hfair : waiter.kind = .fair) (hsleeps : waiter.wakeAt = waiter.deadline)
      {x : Instant × Event} (hx : x ∈ history.sinceLook waiter.token.owner)
      {other : LockToken} {lease : Option Duration}
      (hacq : x.2.acquisition? = some (other, lease)) (hkey : other.key = waiter.token.key)
      (hh : (room.slot waiter.token.key).holder = some ⟨other.owner, lease.map (x.1 + ·)⟩)
  /-- The lease of such a holder has lapsed. -/
  | missed (hfair : waiter.kind = .fair) (hsleeps : waiter.wakeAt = waiter.deadline)
      {y : Instant × Event} (hy : y ∈ history) (h : history.Overtaken waiter.token y.1)
  /-- The lock was free, and somebody ahead of it has crashed over it since. -/
  | deserted (hfair : waiter.kind = .fair) (hsleeps : waiter.wakeAt = waiter.deadline)
      (h : history.CrashedOver waiter.token)

/-! ## What an event does to a waiter -/

section Events

variable {history : History} {now : Instant} {room next : Room} {event : Event} {waiter : Waiter}

/-- A waiter that its slot has not let in, and that still has time, relies on what it has seen. -/
theorem relies_of_seen (hrefused : (room.slot waiter.token.key).admits waiter.kind
      waiter.token.owner = false)
    (hwake : waiter.wakeAt = (room.slot waiter.token.key).wakeAt waiter.deadline) :
    Relies history room waiter := by
  unfold Slot.wakeAt at hwake
  cases hh : (room.slot waiter.token.key).holder with
  | some holder =>
    refine .watching hh fun expiry hexpiry => ?_
    rw [hh, Option.bind_some, hexpiry] at hwake
    rw [hwake]
    exact Nat.min_le_left _ _
  | none =>
    rw [hh, Option.bind_none] at hwake
    cases hkind : waiter.kind with
    | exclusive => simp [Slot.admits, hh, hkind] at hrefused
    | fair => exact .behind hkind hwake hh (by simpa [Slot.admits, hh, hkind] using hrefused)

/-- Whoever waits after an event has been told of it, or has something else to rely on by its own
doing, or is left as it was. -/
theorem Happens.relies_or_stays (h : Happens now room event next) (hw : waiter ∈ next.waiters) :
    Relies ((now, event) :: history) next waiter ∨
      waiter ∈ room.waiters ∧ event.isTold = false ∧
        event.isLookOf waiter.token.owner = false := by
  have htold {r : Room} (hmem : waiter ∈ r.notify.waiters) : waiter.notified = true := by
    simp only [Room.notify, List.mem_map] at hmem
    obtain ⟨w, -, rfl⟩ := hmem
    rfl
  cases h with
  | tried | probed => exact .inr ⟨hw, rfl, rfl⟩
  | entered hentered =>
    obtain ⟨-, rfl⟩ := Room.enter_eq_ok_iff.1 hentered
    rcases List.mem_append.1 hw with hw | hw
    · exact .inr ⟨hw, rfl, rfl⟩
    · obtain rfl := List.mem_singleton.1 hw
      exact .inl (.woken List.mem_cons_self (Nat.le_refl _))
  | @looked owner w hfound =>
    obtain ⟨-, rfl⟩ := Room.mem_of_waiter? hfound
    cases hl : w.leaving with
    | true =>
      rw [Room.look_of_leaving now hfound hl] at hw
      exact .inr ⟨hw, rfl, by simp [Event.isLookOf, hl]⟩
    | false =>
      have hstays (hmem : waiter ∈ room.without w.token.owner) (outcome : Look) :
          waiter ∈ room.waiters ∧ (Event.looked w outcome).isTold = false ∧
            (Event.looked w outcome).isLookOf waiter.token.owner = false := by
        obtain ⟨hmem, hne⟩ := Room.mem_without.1 hmem
        exact ⟨hmem, rfl, by simp [Event.isLookOf, Ne.symm hne]⟩
      rcases Room.look_cases now hfound hl with
        ⟨-, -, he⟩ | ⟨-, -, he⟩ | ⟨-, -, he⟩ | ⟨hrefused, -, he⟩ <;> rw [he] at hw ⊢
      · exact .inr (hstays hw _)
      · exact .inr (hstays hw _)
      · rcases List.mem_append.1 hw with hw | hw
        · exact .inr (hstays hw _)
        · obtain rfl := List.mem_singleton.1 hw
          exact .inl (.leaving rfl)
      · rcases List.mem_append.1 hw with hw | hw
        · exact .inr (hstays hw _)
        · obtain rfl := List.mem_singleton.1 hw
          refine .inl (relies_of_seen ?_ ?_) <;>
            simp only [Room.slot, Slots.slotOf_keep, if_true]
          exact hrefused
  | @left owner w hfound =>
    simp only [Room.leave, hfound] at hw
    cases hkind : w.kind with
    | exclusive =>
      rw [hkind] at hw
      exact .inr ⟨(Room.mem_without.1 hw).1, by simp [Event.isTold, hkind], rfl⟩
    | fair =>
      rw [hkind] at hw
      exact .inl (.told (htold hw))
  | released token =>
    simp only [Room.release] at hw
    split at hw
    · exact .inl (.told (htold hw))
    · rename_i hfreed
      exact .inr ⟨hw, Bool.eq_false_iff.2 hfreed, rfl⟩
  | forced key => exact .inl (.told (htold hw))

/-- The hold of a holder whose lease has not lapsed is not ended without everyone being told. -/
theorem Happens.not_ends_of_untold (h : Happens now room event next) {key : String}
    {holder : Holder} (hh : (room.slot key).holder = some holder)
    (hlive : holder.hasLapsed now = false) (huntold : event.isTold = false) :
    ¬event.Ends ⟨key, holder.owner⟩ := by
  rintro (⟨freed, rfl⟩ | ⟨freed, rfl⟩)
  · cases h
    have hfreed : (room.release now ⟨key, holder.owner⟩).1 = true := by
      refine (room.slots.release_eq now _).trans ?_
      change ((room.slot key).expireHolder now).holder.any _ = true
      rw [(Slot.holder_expireHolder_eq_some _ _).2 ⟨hh, hlive⟩]
      simp
    exact Bool.false_ne_true (huntold.symm.trans hfreed)
  · cases huntold

/-- Whoever has somebody ahead stays behind, as long as the lock stays free and nobody is told of
anything: nobody leaves the queue then but by taking the lock, or by crashing over it. -/
theorem Event.behind_of_untold {key : String} {slot : Slot} {owner : Owner}
    (hbehind : slot.queue.head? ≠ some owner)
    (hfree : (event.slotAfter now key slot).holder = none) (huntold : event.isTold = false)
    (hnew : event.newOwner? ≠ some owner)
    (hcrash : ∀ waiter crash, event = .looked waiter (.crashes crash) → waiter.token.key = key →
      waiter.kind = .exclusive) :
    (event.slotAfter now key slot).queue.head? ≠ some owner := by
  cases event with
  | tried token lease answer =>
    simp only [Event.slotAfter] at hfree ⊢
    split
    · rename_i hk
      rw [if_pos hk] at hfree
      split
      · cases hfree
      · exact hbehind
    · exact hbehind
  | entered token kind wait lease =>
    simp only [Event.slotAfter]
    split
    · have hother : token.owner ≠ owner := fun he => hnew (congrArg some he)
      cases hqueue : slot.queue with
      | nil => simpa [Slot.enqueue, hqueue] using hother
      | cons first others => simpa [Slot.enqueue, hqueue] using hbehind
    · exact hbehind
  | looked waiter outcome =>
    simp only [Event.slotAfter] at hfree ⊢
    split
    · rename_i hk
      rw [if_pos hk] at hfree
      split
      · cases hfree
      · rw [hcrash waiter _ rfl hk]
        exact hbehind
      · split <;> exact hbehind
    · exact hbehind
  | left waiter =>
    have hkind : waiter.kind ≠ .fair := by simpa [Event.isTold] using huntold
    simpa [Event.slotAfter, hkind] using hbehind
  | released token freed =>
    change freed = false at huntold
    simp only [Event.slotAfter, huntold]
    split <;> exact hbehind
  | forced forcedKey freed => cases huntold
  | probed probedKey held =>
    simp only [Event.slotAfter]
    split <;> exact hbehind

/-- A waiter that is left as it was has something to rely on still. -/
theorem Relies.stays (h : Relies history room waiter) (happens : Happens now room event next)
    (huntold : event.isTold = false) (hlook : event.isLookOf waiter.token.owner = false)
    (hnew : event.newOwner? ≠ some waiter.token.owner) :
    Relies ((now, event) :: history) next waiter := by
  have hsince := @History.sinceLook_cons history now event _ hlook
  have hlater {x : Instant × Event} (hx : x ∈ history.sinceLook waiter.token.owner) :
      x ∈ History.sinceLook ((now, event) :: history) waiter.token.owner := by
    rw [hsince]
    exact List.mem_cons_of_mem _ hx
  -- A holder on record stays there, or the wake-up that it was good for has come.
  have hpersists {holder : Holder} (hh : (room.slot waiter.token.key).holder = some holder) :
      (next.slot waiter.token.key).holder = some holder ∨
        ∃ expiry ∈ holder.expiresAt, expiry ≤ now := by
    cases hlapsed : holder.hasLapsed now with
    | false =>
      exact .inl (happens.holder_persists hh hlapsed
        (happens.not_ends_of_untold hh hlapsed huntold))
    | true => exact .inr (Holder.hasLapsed_eq_true_iff.1 hlapsed)
  cases h with
  | leaving h => exact .leaving h
  | told h => exact .told h
  | woken hx h => exact .woken (List.mem_cons_of_mem _ hx) h
  | watching hh h =>
    rcases hpersists hh with hh' | ⟨expiry, hexpiry, hle⟩
    · exact .watching hh' h
    · exact .woken List.mem_cons_self (Nat.le_trans (h expiry hexpiry) hle)
  | behind hfair hsleeps hfree hbehind =>
    have hmem : (now, event) ∈
        History.sinceLook ((now, event) :: history) waiter.token.owner := by
      rw [hsince]
      exact List.mem_cons_self
    cases hh : (next.slot waiter.token.key).holder with
    | none =>
      by_cases hcrash : ∃ other crash, event = .looked other (.crashes crash) ∧
          other.kind = .fair ∧ other.token.key = waiter.token.key
      · exact .deserted hfair hsleeps ⟨_, hmem, hcrash⟩
      · refine .behind hfair hsleeps hh ?_
        rw [happens.slot] at hh ⊢
        refine Event.behind_of_untold hbehind hh huntold hnew fun other crash he hk => ?_
        cases hkind : other.kind with
        | exclusive => rfl
        | fair => exact absurd ⟨other, crash, he, hkind, hk⟩ hcrash
    | some holder =>
      rcases happens.holder_origin hh with ⟨hold, -⟩ | ⟨lease, hacq, hexpiry⟩
      · rw [hfree] at hold
        cases hold
      · exact .overtaken hfair hsleeps hmem hacq rfl (by rw [hh, ← hexpiry])
  | @overtaken hfair hsleeps x hx other lease hacq hkey hh =>
    rcases hpersists hh with hh' | ⟨expiry, hexpiry, hle⟩
    · exact .overtaken hfair hsleeps (hlater hx) hacq hkey hh'
    · obtain ⟨span, rfl, rfl⟩ := Option.map_eq_some_iff.1 hexpiry
      exact .missed hfair hsleeps List.mem_cons_self ⟨x, hlater hx, other, span, hacq, hkey, hle⟩
  | @missed hfair hsleeps y hy hovertaken =>
    obtain ⟨x, hx, htaken⟩ := hovertaken
    exact .missed hfair hsleeps (List.mem_cons_of_mem _ hy) ⟨x, hlater hx, htaken⟩
  | deserted hfair hsleeps h =>
    obtain ⟨x, hx, hcrashed⟩ := h
    exact .deserted hfair hsleeps ⟨x, hlater hx, hcrashed⟩

end Events

/-! ## Along a course -/

namespace Course

variable {history : History} {room : Room}

/-- At any time everyone who waits has something to rely on. -/
theorem relies (h : Course history room) {waiter : Waiter} (hw : waiter ∈ room.waiters) :
    Relies history room waiter := by
  induction h generalizing waiter with
  | start => cases hw
  | @event history room next now event course happens fresh ih =>
    rcases @Happens.relies_or_stays history _ _ _ _ _ happens hw with
      h | ⟨hmem, huntold, hlook⟩
    · exact h
    · exact (ih hmem).stays happens huntold hlook fun hnew =>
        fresh _ hnew (course.owner_of_waiter hmem)

/-- A waiter that would be called up if it looked has been told of a change, or its wake-up has
come, whatever the order in which the waiters have looked. The only one that sleeps on is a fair
one whose lock was free at its last look, with somebody ahead of it, and has been taken since for a
lease that has lapsed, or has made another fair waiter crash: it sleeps until its deadline. -/
theorem woken_unless_overtaken (h : Course history room) {now : Instant}
    (order : history.InOrder now) {owner : Owner} {waiter : Waiter}
    (hw : room.waiter? owner = some waiter) (hcalled : (room.look now owner).1.isCalled = true) :
    waiter.notified = true ∨ waiter.wakeAt ≤ now ∨
      waiter.kind = .fair ∧ waiter.wakeAt = waiter.deadline ∧
        (history.Overtaken waiter.token now ∨ history.CrashedOver waiter.token) := by
  obtain ⟨hmem, rfl⟩ := Room.mem_of_waiter? hw
  obtain ⟨hadmits, hstays, -⟩ := Room.admits_of_called hw hcalled
  simp only [Slot.admits, Bool.and_eq_true, Option.isNone_iff_eq_none] at hadmits
  obtain ⟨hfree, hfirst⟩ := hadmits
  have hlapsed {holder : Holder} (hh : (room.slot waiter.token.key).holder = some holder) :
      ∃ expiry ∈ holder.expiresAt, expiry ≤ now := by
    cases hl : holder.hasLapsed now with
    | false =>
      rw [(Slot.holder_expireHolder_eq_some _ _).2 ⟨hh, hl⟩] at hfree
      cases hfree
    | true => exact Holder.hasLapsed_eq_true_iff.1 hl
  cases h.relies hmem with
  | leaving hleaving => cases hstays.symm.trans hleaving
  | told htold => exact .inl htold
  | woken hx hle => exact .inr (.inl (Nat.le_trans hle (order.le hx)))
  | watching hh hle =>
    obtain ⟨expiry, hexpiry, hpast⟩ := hlapsed hh
    exact .inr (.inl (Nat.le_trans (hle expiry hexpiry) hpast))
  | behind hfair _ _ hbehind =>
    rw [hfair] at hfirst
    exact absurd (beq_iff_eq.1 hfirst) hbehind
  | @overtaken hfair hsleeps x hx other lease hacq hkey hh =>
    obtain ⟨expiry, hexpiry, hpast⟩ := hlapsed hh
    obtain ⟨span, rfl, rfl⟩ := Option.map_eq_some_iff.1 hexpiry
    exact .inr (.inr ⟨hfair, hsleeps, .inl ⟨x, hx, other, span, hacq, hkey, hpast⟩⟩)
  | missed hfair hsleeps hy hovertaken =>
    obtain ⟨x, hx, other, span, hacq, hkey, hpast⟩ := hovertaken
    exact .inr (.inr ⟨hfair, hsleeps, .inl ⟨x, hx, other, span, hacq, hkey,
      Nat.le_trans hpast (order.le hy)⟩⟩)
  | deserted hfair hsleeps h => exact .inr (.inr ⟨hfair, hsleeps, .inr h⟩)

/-- An exclusive waiter at a held lock: when the lease has lapsed, its wake-up has come. -/
theorem woken_unless_overtaken_of_exclusive :
    ∃ room waiter, Course
        [(2, .looked ⟨⟨"k", "b"⟩, .exclusive, none, 21, 1, false, false⟩ .waits),
          (1, .entered ⟨"k", "b"⟩ .exclusive 20 none), (0, .tried ⟨"k", "a"⟩ (some 10) (.ok true))]
        room ∧
      room.waiter? "b" = some waiter ∧ (room.look 10 "b").1 = .admitted ∧
      (waiter.notified = true ∨ waiter.wakeAt ≤ 10) := by
  have tried := Course.start.event (@Happens.tried 0 _ ⟨"k", "a"⟩ (some 10)) (by decide)
  have entered := tried.event (@Happens.entered 1 _ ⟨"k", "b"⟩ .exclusive 20 none _ rfl) (by decide)
  have course := entered.event (@Happens.looked 2 _ "b" _ rfl) (by decide)
  refine ⟨_, _, course, rfl, rfl, ?_⟩
  obtain htold | hwoken | ⟨hfair, -⟩ :=
    @woken_unless_overtaken _ _ course 10 (by decide) "b" _ rfl rfl
  · exact .inl htold
  · exact .inr hwoken
  · cases hfair

/-- When the holder's lease lapses, the second fair waiter looks before the first one: it sees the
lock free, with the first one ahead of it, and sleeps until its deadline. The first one takes the
lock for a lease of its own, and nobody tells the second one when that has lapsed, too. -/
theorem sleeps_though_free : ∃ history room now owner waiter, Course history room ∧
    history.InOrder now ∧ room.waiter? owner = some waiter ∧
    (room.look now owner).1 = .admitted ∧ ¬(waiter.notified = true ∨ waiter.wakeAt ≤ now) := by
  have tried := Course.start.event (@Happens.tried 0 _ ⟨"k", "a"⟩ (some 10)) (by decide)
  have first := tried.event (@Happens.entered 1 _ ⟨"k", "b"⟩ .fair 1000 (some 20) _ rfl) (by decide)
  have second := first.event (@Happens.entered 2 _ ⟨"k", "c"⟩ .fair 1000 none _ rfl) (by decide)
  have firstWaits := second.event (@Happens.looked 3 _ "b" _ rfl) (by decide)
  have secondWaits := firstWaits.event (@Happens.looked 4 _ "c" _ rfl) (by decide)
  have secondLooks := secondWaits.event (@Happens.looked 10 _ "c" _ rfl) (by decide)
  have firstEnters := secondLooks.event (@Happens.looked 10 _ "b" _ rfl) (by decide)
  exact ⟨_, _, 30, "c", _, firstEnters, by decide, rfl, rfl, by decide⟩

/-- When the holder's lease lapses, the second fair waiter looks before the first one, which then
crashes over the lock: its lease has no end that can be represented. The second one would be let in,
but nothing wakes it. -/
example : ∃ history room waiter, Course history room ∧ room.waiter? "c" = some waiter ∧
    (room.look 11 "c").1 = .admitted ∧ ¬(waiter.notified = true ∨ waiter.wakeAt ≤ 11) ∧
    history.CrashedOver waiter.token := by
  have tried := Course.start.event (@Happens.tried 0 _ ⟨"k", "a"⟩ (some 10)) (by decide)
  have first := tried.event (@Happens.entered 1 _ ⟨"k", "b"⟩ .fair 1000 (some Instant.limit) _ rfl)
    (by decide)
  have second := first.event (@Happens.entered 2 _ ⟨"k", "c"⟩ .fair 1000 none _ rfl) (by decide)
  have waits := second.event (@Happens.looked 10 _ "c" _ rfl) (by decide)
  have crashes := waits.event (@Happens.looked 10 _ "b" _ rfl) (by decide)
  exact ⟨_, _, _, crashes, rfl, rfl, by decide, _, List.mem_cons_self, _, .clockOverflow, rfl, rfl,
    rfl⟩

end Course
end Turnstile.Lock
