import Turnstile.Proofs.Lock.Tenure

/-!
# Queues and those who pend

A fair waiter pends from its arrival until it is let in, crashes or has left. A waiter whose time
is over has not left yet: its wait ends when it gives up its place. Who pends can be told from
what has happened alone, without any slot; the queue of a slot lists the same waiters, in
the order of their arrival.
-/

namespace Turnstile.Lock

namespace Event

/-- The fair waiter that arrives with an event. -/
def fairArrival? : Event → Option LockToken
  | .entered token .fair _ _ => some token
  | _ => none

/-- The fair waiter that is called up or leaves with an event. -/
def fairEnd? : Event → Option LockToken
  | .looked waiter .admitted | .looked waiter (.crashes _) | .left waiter =>
    if waiter.kind = .fair then some waiter.token else none
  | _ => none

/-- A look ends the wait of a fair waiter that it calls up. -/
theorem fairEnd?_looked {waiter : Waiter} {outcome : Look} {token : LockToken} :
    (Event.looked waiter outcome).fairEnd? = some token ↔
      outcome.isCalled = true ∧ waiter.kind = .fair ∧ waiter.token = token := by
  cases outcome <;> simp [fairEnd?, Look.isCalled]

/-- No event is both an arrival and an end. -/
theorem fairEnd?_of_fairArrival? {event : Event} {token : LockToken}
    (h : event.fairArrival? = some token) : event.fairEnd? = none := by
  unfold fairArrival? at h
  split at h
  · rfl
  · cases h

/-- Whoever arrives brings a name into the room. -/
theorem newOwner?_of_fairArrival? {event : Event} {token : LockToken}
    (h : event.fairArrival? = some token) : event.newOwner? = some token.owner := by
  unfold fairArrival? at h
  split at h
  · cases h
    rfl
  · cases h

end Event

namespace History

variable (history : History)

/-- The fair waiters that have arrived, in the order of their arrival. -/
def arrivals : List LockToken := history.reverse.filterMap (·.2.fairArrival?)

/-- The fair waiters that have been called up or have left. -/
def ends : List LockToken := history.filterMap (·.2.fairEnd?)

/-- The fair waiters of a key that pend, in the order of their arrival. -/
def pending (key : String) : List Owner :=
  (history.arrivals.filter fun token => token.key = key ∧ token ∉ history.ends).map (·.owner)

variable {history} {now : Instant} {event : Event} {token : LockToken}

theorem arrivals_cons : History.arrivals ((now, event) :: history) =
    history.arrivals ++ event.fairArrival?.toList := by
  cases h : event.fairArrival? <;> simp [arrivals, List.filterMap_append, h]

theorem ends_cons : History.ends ((now, event) :: history) =
    event.fairEnd?.toList ++ history.ends := by
  cases h : event.fairEnd? <;> simp [ends, h]

/-- A fair waiter that arrives pends behind all others. -/
theorem pending_of_arrival (harr : event.fairArrival? = some token) (hnew : token ∉ history.ends)
    (key : String) :
    History.pending ((now, event) :: history) key =
      if token.key = key then history.pending key ++ [token.owner] else history.pending key := by
  have hend := Event.fairEnd?_of_fairArrival? harr
  by_cases hk : token.key = key <;> simp [pending, arrivals_cons, ends_cons, harr, hend, hk, hnew]

/-- A fair waiter that is called up or leaves does not pend any more. -/
theorem pending_of_end (hend : event.fairEnd? = some token) (key : String) :
    History.pending ((now, event) :: history) key =
      if token.key = key then (history.pending key).filter (· != token.owner)
      else history.pending key := by
  have harr : event.fairArrival? = none := by
    cases h : event.fairArrival? with
    | none => rfl
    | some other => simp [Event.fairEnd?_of_fairArrival? h] at hend
  have hsame (other : LockToken) : other = token ↔
      other.key = token.key ∧ other.owner = token.owner := by
    cases other
    cases token
    simp
  simp only [pending, arrivals_cons, ends_cons, harr, hend, Option.toList_none, List.append_nil]
  by_cases hk : token.key = key
  · rw [if_pos hk, List.filter_map, List.filter_filter]
    congr 1
    refine List.filter_congr fun other _ => ?_
    rw [Bool.eq_iff_iff]
    by_cases hkey : other.key = key <;> simp [hsame, hkey, hk]
  · rw [if_neg hk]
    congr 1
    refine List.filter_congr fun other _ => ?_
    rw [Bool.eq_iff_iff]
    by_cases hkey : other.key = key <;> simp [hsame, hkey, Ne.symm hk]

/-- An event with which nobody arrives or ends leaves those who pend alone. -/
theorem pending_of_neither (harr : event.fairArrival? = none) (hend : event.fairEnd? = none)
    (key : String) : History.pending ((now, event) :: history) key = history.pending key := by
  simp [pending, arrivals_cons, ends_cons, harr, hend]

end History

/-! ## The queue after an event -/

section Queue

variable {now : Instant} {room next : Room} {event : Event} {token : LockToken}

/-- A fair waiter that arrives goes to the end of the queue. -/
theorem Happens.queue_of_arrival (h : Happens now room event next)
    (harr : event.fairArrival? = some token) (key : String) :
    (next.slot key).queue =
      if token.key = key then (room.slot key).queue ++ [token.owner]
      else (room.slot key).queue := by
  rw [h.slot]
  unfold Event.fairArrival? at harr
  split at harr
  · cases harr
    simp only [Event.slotAfter, true_and]
    split <;> rfl
  · cases harr

/-- A fair waiter is called up from the head of the queue. -/
theorem Happens.head_of_called (h : Happens now room event next) {waiter : Waiter} {outcome : Look}
    (he : event = .looked waiter outcome) (hcalled : outcome.isCalled = true)
    (hfair : waiter.kind = .fair) :
    (room.slot waiter.token.key).queue.head? = some waiter.token.owner := by
  cases h with
  | @looked owner w hw =>
    cases he
    have hadmits := (Room.admits_of_called hw hcalled).1
    simp only [Slot.admits, hfair, Bool.and_eq_true, beq_iff_eq] at hadmits
    exact hadmits.2
  | _ => cases he

/-- Whoever is called up or leaves has waited. -/
theorem Happens.waiter_of_end (h : Happens now room event next)
    (hend : event.fairEnd? = some token) : ∃ waiter ∈ room.waiters, waiter.token = token := by
  cases h with
  | @looked owner waiter hw =>
    exact ⟨waiter, (Room.mem_of_waiter? hw).1, (Event.fairEnd?_looked.1 hend).2.2⟩
  | @left owner waiter hw =>
    exact ⟨waiter, (Room.mem_of_waiter? hw).1,
      Option.some.inj (Option.ite_none_right_eq_some.1 hend).2⟩
  | _ => cases hend

/-- A waiter that is called up leaves the queue from its head, if it is a fair one. -/
theorem Event.queue_of_called {waiter : Waiter} {outcome : Look} (hcalled : outcome.isCalled = true)
    (slot : Slot) :
    ((Event.looked waiter outcome).slotAfter now waiter.token.key slot).queue =
      (slot.callUp waiter.kind).queue := by
  have hlive : ((slot.expireHolder now).callUp waiter.kind).queue =
      (slot.callUp waiter.kind).queue := by
    cases waiter.kind <;> rfl
  cases outcome with
  | admitted | crashes =>
    simp only [Event.slotAfter, if_true]
    exact hlive
  | _ => cases hcalled

/-- A fair waiter that is called up or leaves is not in the queue any more. -/
theorem Happens.queue_of_end (h : Happens now room event next)
    (hend : event.fairEnd? = some token) (key : String) (hnodup : (room.slot key).queue.Nodup) :
    (next.slot key).queue =
      if token.key = key then (room.slot key).queue.filter (· != token.owner)
      else (room.slot key).queue := by
  have hslot := h.slot key
  have hleaves {waiter : Waiter} {outcome : Look} (he : event = .looked waiter outcome)
      (hcalled : outcome.isCalled = true) (hfair : waiter.kind = .fair) :
      (next.slot key).queue =
        if waiter.token.key = key then (room.slot key).queue.filter (· != waiter.token.owner)
        else (room.slot key).queue := by
    have hhead := h.head_of_called he hcalled hfair
    rw [hslot, he]
    by_cases hk : waiter.token.key = key
    · subst hk
      obtain ⟨others, hqueue⟩ := List.head?_eq_some_iff.1 hhead
      rw [hqueue, List.nodup_cons] at hnodup
      have hkeep : others.filter (· != waiter.token.owner) = others := by
        refine List.filter_eq_self.2 fun owner hmem => bne_iff_ne.2 fun he => hnodup.1 ?_
        rw [← he]
        exact hmem
      rw [Event.queue_of_called hcalled]
      simp [Slot.callUp, hfair, hqueue, hkeep]
    · simp [Event.slotAfter, hk]
  cases event with
  | looked waiter outcome =>
    obtain ⟨hcalled, hfair, rfl⟩ := Event.fairEnd?_looked.1 hend
    exact hleaves rfl hcalled hfair
  | left waiter =>
    obtain ⟨hfair, he⟩ := Option.ite_none_right_eq_some.1 hend
    cases he
    rw [hslot]
    simp only [Event.slotAfter, hfair, true_and]
    split <;> rfl
  | _ => cases hend

/-- An event with which nobody arrives or ends leaves the queues alone. -/
theorem Happens.queue_of_neither (h : Happens now room event next)
    (harr : event.fairArrival? = none) (hend : event.fairEnd? = none) (key : String) :
    (next.slot key).queue = (room.slot key).queue := by
  rw [h.slot]
  cases event with
  | tried token lease answer =>
    simp only [Event.slotAfter]
    split
    · split <;> rfl
    · rfl
  | entered token kind wait lease =>
    cases kind with
    | exclusive => simp [Event.slotAfter]
    | fair => cases harr
  | looked waiter outcome =>
    by_cases hk : waiter.token.key = key
    · subst hk
      cases hcalled : outcome.isCalled with
      | true =>
        rw [Event.queue_of_called hcalled]
        cases hkind : waiter.kind with
        | exclusive => rfl
        | fair => cases hend.symm.trans (Event.fairEnd?_looked.2 ⟨hcalled, hkind, rfl⟩)
      | false =>
        cases outcome with
        | admitted | crashes => cases hcalled
        | _ =>
          simp only [Event.slotAfter, if_true]
          split <;> rfl
    · simp only [Event.slotAfter, if_neg hk]
  | left waiter =>
    cases hkind : waiter.kind with
    | exclusive => simp [Event.slotAfter, hkind]
    | fair => simp [Event.fairEnd?, hkind] at hend
  | released token freed =>
    simp only [Event.slotAfter]
    split
    · split <;> rfl
    · rfl
  | forced forcedKey freed =>
    simp only [Event.slotAfter]
    split <;> rfl
  | probed probedKey held =>
    simp only [Event.slotAfter]
    split <;> rfl

end Queue

/-! ## The queue of a course -/

namespace Course

variable {history : History} {room : Room}

/-- Whoever has been called up or has left has come into the room under its owner name. -/
theorem owner_of_end (h : Course history room) {token : LockToken} (ht : token ∈ history.ends) :
    token.owner ∈ history.owners := by
  induction h with
  | start => cases ht
  | @event history room next now event course happens fresh ih =>
    rw [History.ends_cons, List.mem_append, Option.mem_toList] at ht
    refine History.mem_owners_cons ?_ now event
    rcases ht with hend | ht
    · obtain ⟨waiter, hw, rfl⟩ := happens.waiter_of_end hend
      exact course.owner_of_waiter hw
    · exact ih ht

/-- The queue of a slot lists those who pend, each once. -/
theorem queue_eq_pending (h : Course history room) (key : String) :
    (room.slot key).queue = history.pending key ∧ (room.slot key).queue.Nodup ∧
      ∀ owner ∈ (room.slot key).queue, owner ∈ history.owners := by
  induction h with
  | start => exact ⟨rfl, List.nodup_nil, by rintro owner ⟨⟩⟩
  | @event history room next now event course happens fresh ih =>
    obtain ⟨hqueue, hnodup, howners⟩ := ih
    have hweaken (owner : Owner) (hmem : owner ∈ (room.slot key).queue) :
        owner ∈ History.owners ((now, event) :: history) :=
      History.mem_owners_cons (howners owner hmem) now event
    cases harr : event.fairArrival? with
    | some token =>
      have hnew := fresh token.owner (Event.newOwner?_of_fairArrival? harr)
      rw [happens.queue_of_arrival harr,
        History.pending_of_arrival harr fun hend => hnew (course.owner_of_end hend), ← hqueue]
      by_cases hk : token.key = key
      · simp only [if_pos hk, List.mem_append, List.mem_singleton]
        refine ⟨trivial, ?_, ?_⟩
        · refine List.nodup_append.2 ⟨hnodup, by simp, ?_⟩
          rintro owner hmem _ hself rfl
          obtain rfl := List.mem_singleton.1 hself
          exact hnew (howners _ hmem)
        · rintro owner (hmem | rfl)
          · exact hweaken owner hmem
          · rw [History.owners_cons, Event.newOwner?_of_fairArrival? harr]
            exact List.mem_cons_self
      · simp only [if_neg hk]
        exact ⟨trivial, hnodup, hweaken⟩
    | none =>
      cases hend : event.fairEnd? with
      | some token =>
        rw [happens.queue_of_end hend key hnodup, History.pending_of_end hend, ← hqueue]
        by_cases hk : token.key = key
        · simp only [if_pos hk]
          exact ⟨trivial, hnodup.filter _,
            fun owner hmem => hweaken owner (List.mem_filter.1 hmem).1⟩
        · simp only [if_neg hk]
          exact ⟨trivial, hnodup, hweaken⟩
      | none =>
        rw [happens.queue_of_neither harr hend, History.pending_of_neither harr hend]
        exact ⟨hqueue, hnodup, hweaken⟩

/-- At any time the queue of a slot lists the fair waiters that pend, each once and in the order of
their arrival. So a fair waiter is let in only when it is the first of those that pend, and a lock
can be taken without waiting unless it is held or somebody pends; in order of time, it is held
exactly if an acquisition still holds it. -/
theorem queue_lists_pending (h : Course history room) (key : String) (now : Instant) :
    (room.slot key).queue = history.pending key ∧ (history.pending key).Nodup ∧
    (∀ owner waiter, room.waiter? owner = some waiter → waiter.kind = .fair →
      waiter.token.key = key → (room.look now owner).1 = .admitted →
      (history.pending key).head? = some waiter.token.owner) ∧
    (∀ owner lease, (room.tryAcquire now ⟨key, owner⟩ lease).1 = .ok false ↔
      (room.isHeld now key).1 = true ∨ history.pending key ≠ []) ∧
    (history.InOrder now → ((room.isHeld now key).1 = true ↔ history.Holds now key)) := by
  obtain ⟨hqueue, hnodup, -⟩ := h.queue_eq_pending key
  rw [← hqueue]
  refine ⟨rfl, hnodup, ?_, ?_, fun order => h.isHeld_iff order key⟩
  · rintro owner waiter hw hfair rfl hadmitted
    exact (Happens.looked hw).head_of_called rfl (by rw [hadmitted]; rfl) hfair
  · intro owner lease
    change (room.slots.tryAcquire now ⟨key, owner⟩ lease).1 = .ok false ↔
      (room.slots.isHeld now key).1 = true ∨ (room.slots.slotOf key).queue ≠ []
    rw [Slots.tryAcquire_eq_false_iff, Slots.isHeld_eq, ← Bool.not_eq_true, Slot.isIdle_iff]
    cases ((room.slots.slotOf key).expireHolder now).holder <;> simp

/-- Two fair waiters arrive at a held lock and the first one is called off: the other one pends
alone, and is let in when the lease has lapsed, but not before. -/
theorem queue_lists_pending_of_called_off :
    ∃ room, Course
        [(3, .left ⟨⟨"k", "b"⟩, .fair, none, 21, 1, false, false⟩),
          (2, .entered ⟨"k", "c"⟩ .fair 20 none), (1, .entered ⟨"k", "b"⟩ .fair 20 none),
          (0, .tried ⟨"k", "a"⟩ (some 10) (.ok true))] room ∧
      (room.slot "k").queue = ["c"] ∧ (room.look 12 "c").1 = .admitted ∧
      (room.tryAcquire 12 ⟨"k", "d"⟩ none).1 = .ok false ∧ (room.isHeld 9 "k").1 = true := by
  have tried := Course.start.event (@Happens.tried 0 _ ⟨"k", "a"⟩ (some 10)) (by decide)
  have first := tried.event (@Happens.entered 1 _ ⟨"k", "b"⟩ .fair 20 none _ rfl) (by decide)
  have second := first.event (@Happens.entered 2 _ ⟨"k", "c"⟩ .fair 20 none _ rfl) (by decide)
  have course := second.event (@Happens.left 3 _ "b" _ rfl) (by decide)
  obtain ⟨hqueue, -, -, htry, -⟩ := course.queue_lists_pending "k" 12
  obtain ⟨-, -, -, -, hheld⟩ := course.queue_lists_pending "k" 9
  refine ⟨_, course, hqueue, rfl, (htry "d" none).2 (.inr (by decide)), ?_⟩
  refine (hheld (by decide)).2 ⟨[_, _, _], 0, _, [], ⟨"k", "a"⟩, some 10, rfl, rfl, rfl, ?_, ?_⟩
  · simp [Event.Ends]
  · simp

end Course
end Turnstile.Lock
