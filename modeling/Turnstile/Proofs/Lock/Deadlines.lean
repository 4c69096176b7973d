import Turnstile.Proofs.Lock.Course

/-!
# Deadlines of those who wait

A waiter sets its wake-up no later than its deadline. If it is attended to, that is, if it looks at
its lock whenever it has been told of a change or its wake-up has come, then it is never found
waiting after its deadline: at the deadline itself it is let in, or it gives up because the lock is
not to be had. What all others do, and when they look, makes no difference to that.
-/

namespace Turnstile.Lock

/-! ## Who may be let in -/

/-- Whether a lock is to be had for an acquisition: nobody holds it whose lease has not lapsed, and
for a fair one nobody is ahead in the queue. -/
def Room.Admissible (room : Room) (now : Instant) (token : LockToken) (kind : Kind) : Prop :=
  (∀ holder, (room.slot token.key).holder = some holder → holder.hasLapsed now = true) ∧
    (kind = .fair → (room.slot token.key).queue.head? = some token.owner)

namespace Room

variable {room : Room} {now : Instant}

/-- A lock is to be had if what is left of its slot admits the acquisition. -/
theorem admissible_iff (token : LockToken) (kind : Kind) : room.Admissible now token kind ↔
    ((room.slot token.key).expireHolder now).admits kind token.owner = true := by
  have hholder : ((room.slot token.key).expireHolder now).holder = none ↔
      ∀ holder, (room.slot token.key).holder = some holder → holder.hasLapsed now = true := by
    simp only [Slot.expireHolder, Option.filter_eq_none_iff, Bool.not_eq_true', Bool.not_eq_false]
  simp only [Admissible, Slot.admits, Bool.and_eq_true, Option.isNone_iff_eq_none, hholder]
  cases kind with
  | exclusive => simp
  | fair => simp [Slot.expireHolder]

/-- What comes of a look depends on whether the lock is to be had, for a lease whose end can be
represented, and if not, on the deadline. -/
theorem look_iff {owner : Owner} {waiter : Waiter} (now : Instant)
    (h : room.waiter? owner = some waiter) (hl : waiter.leaving = false) :
    ((room.look now owner).1 = .admitted ↔ room.Admissible now waiter.token waiter.kind ∧
      ∀ span ∈ waiter.lease, now + span < Instant.limit) ∧
    ((room.look now owner).1 = .crashes .clockOverflow ↔
      room.Admissible now waiter.token waiter.kind ∧
        ∃ span ∈ waiter.lease, Instant.limit ≤ now + span) ∧
    ((room.look now owner).1 = .givesUp ↔
      ¬room.Admissible now waiter.token waiter.kind ∧ waiter.deadline ≤ now) ∧
    ((room.look now owner).1 = .waits ↔
      ¬room.Admissible now waiter.token waiter.kind ∧ now < waiter.deadline) := by
  obtain ⟨-, rfl⟩ := mem_of_waiter? h
  rw [admissible_iff]
  rcases look_cases now h hl with ⟨ha, hfits, he⟩ | ⟨ha, hover, he⟩ | ⟨ha, hd, he⟩ | ⟨ha, hd, he⟩
  · have hnone : ¬∃ span ∈ waiter.lease, Instant.limit ≤ now + span :=
      fun ⟨span, hspan, hle⟩ => Nat.not_le_of_lt (hfits span hspan) hle
    simp only [he, ha, hnone, true_and, not_true, false_and, reduceCtorEq, and_false, iff_self,
      and_true, true_iff]
    exact hfits
  · have hsome : ¬∀ span ∈ waiter.lease, now + span < Instant.limit :=
      fun hfits => hover.elim fun span h => Nat.not_le_of_lt (hfits span h.1) h.2
    simp only [he, ha, hsome, hover, true_and, not_true, false_and, reduceCtorEq, and_true]
  · simp [he, ha, hd]
  · simp [he, ha, hd]

end Room

/-! ## What an event does to a waiter -/

/-- No wake-up is set for later than the deadline. -/
theorem Slot.wakeAt_le (slot : Slot) (deadline : Instant) : slot.wakeAt deadline ≤ deadline := by
  unfold wakeAt
  split
  · exact Nat.min_le_right _ _
  · exact Nat.le_refl _

/-- How someone comes to wait after an event: newly arrived, as before but perhaps told of a
change, sent back to wait after a look, or about to leave after a look at the deadline. -/
inductive Becomes (now : Instant) (room : Room) (event : Event) : Waiter → Prop
  | arrives {token : LockToken} {kind : Kind} {wait : Duration} {lease : Option Duration}
      (hevent : event = .entered token kind wait lease) :
      Becomes now room event { token, kind, lease, deadline := now + wait, wakeAt := now,
                               notified := false, leaving := false }
  | stays {w : Waiter} (hw : w ∈ room.waiters) : Becomes now room event w
  | told {w : Waiter} (hw : w ∈ room.waiters) : Becomes now room event { w with notified := true }
  | waits {w : Waiter} (hw : w ∈ room.waiters) (hleaving : w.leaving = false) (slot : Slot) :
      Becomes now room event { w with wakeAt := slot.wakeAt w.deadline, notified := false }
  | givesUp {w : Waiter} (hw : w ∈ room.waiters) (hleaving : w.leaving = false)
      (hevent : event = .looked w .givesUp) (hdeadline : w.deadline ≤ now)
      (hrefused : ¬room.Admissible now w.token w.kind) :
      Becomes now room event { w with leaving := true }

section Events

variable {now : Instant} {room next : Room} {event : Event} {waiter : Waiter}

/-- Being told of a change is all that happens to those who are told. -/
theorem Becomes.of_notify {others : List Waiter} {slots : Slots}
    (hw : waiter ∈ (Room.notify ⟨slots, others⟩).waiters)
    (hothers : ∀ w ∈ others, w ∈ room.waiters) : Becomes now room event waiter := by
  simp only [Room.notify, List.mem_map] at hw
  obtain ⟨w, hmem, rfl⟩ := hw
  exact .told (hothers w hmem)

/-- Whoever waits after an event arrives with it, is told of it, has looked, or waits as before. -/
theorem Happens.becomes (h : Happens now room event next) (hw : waiter ∈ next.waiters) :
    Becomes now room event waiter := by
  cases h with
  | tried | probed => exact .stays hw
  | entered hentered =>
    obtain ⟨-, rfl⟩ := Room.enter_eq_ok_iff.1 hentered
    rcases List.mem_append.1 hw with hw | hw
    · exact .stays hw
    · obtain rfl := List.mem_singleton.1 hw
      exact .arrives rfl
  | @looked owner w hfound =>
    obtain ⟨hmem, rfl⟩ := Room.mem_of_waiter? hfound
    cases hl : w.leaving with
    | true =>
      rw [Room.look_of_leaving now hfound hl] at hw
      exact .stays hw
    | false =>
      have hstays (hmem : waiter ∈ room.without w.token.owner) :
          Becomes now room (.looked w (room.look now w.token.owner).1) waiter :=
        .stays (Room.mem_without.1 hmem).1
      rcases Room.look_cases now hfound hl with
        ⟨-, -, he⟩ | ⟨-, -, he⟩ | ⟨hrefused, hdeadline, he⟩ | ⟨-, -, he⟩
      · rw [he] at hw
        exact hstays hw
      · rw [he] at hw
        exact hstays hw
      · rw [he] at hw
        rcases List.mem_append.1 hw with hw | hw
        · exact hstays hw
        · obtain rfl := List.mem_singleton.1 hw
          refine .givesUp hmem hl (by rw [he]) hdeadline ?_
          rw [Room.admissible_iff, hrefused]
          exact Bool.false_ne_true
      · rw [he] at hw
        rcases List.mem_append.1 hw with hw | hw
        · exact hstays hw
        · obtain rfl := List.mem_singleton.1 hw
          exact .waits hmem hl _
  | @left owner w hfound =>
    simp only [Room.leave, hfound] at hw
    split at hw
    · exact .stays (Room.mem_without.1 hw).1
    · exact .of_notify hw fun w hmem => (Room.mem_without.1 hmem).1
  | released token =>
    simp only [Room.release] at hw
    split at hw
    · exact .of_notify hw fun w hmem => hmem
    · exact .stays hw
  | forced key => exact .of_notify hw fun w hmem => hmem

end Events

/-! ## Along a course -/

namespace Course

variable {history : History} {room : Room} {waiter : Waiter}

/-- Nobody's wake-up is later than the deadline. -/
theorem wakeAt_le_deadline (course : Course history room) (hw : waiter ∈ room.waiters) :
    waiter.wakeAt ≤ waiter.deadline := by
  induction course generalizing waiter with
  | start => cases hw
  | event course happens fresh ih =>
    cases happens.becomes hw with
    | arrives => exact Nat.le_add_right _ _
    | stays hmem => exact ih hmem
    | told hmem =>
      have hold := ih hmem
      exact hold
    | waits hmem _ slot => exact slot.wakeAt_le _
    | givesUp hmem =>
      have hold := ih hmem
      exact hold

/-- Whoever waits has come in at some instant, and its deadline is as far from that as it was to
wait. -/
theorem arrival_of_waiter (course : Course history room) (hw : waiter ∈ room.waiters) :
    ∃ arrival wait, (arrival, .entered waiter.token waiter.kind wait waiter.lease) ∈ history ∧
      waiter.deadline = arrival + wait := by
  induction course generalizing waiter with
  | start => cases hw
  | @event history room next now event course happens fresh ih =>
    have hearlier {w : Waiter} (hmem : w ∈ room.waiters) (hsame : w.SameRequest waiter)
        (hdeadline : w.deadline = waiter.deadline) :
        ∃ arrival wait, (arrival, .entered waiter.token waiter.kind wait waiter.lease) ∈
          (now, event) :: history ∧ waiter.deadline = arrival + wait := by
      obtain ⟨arrival, wait, harrival, heq⟩ := ih hmem
      rw [hsame.1, hsame.2.1, hsame.2.2] at harrival
      exact ⟨arrival, wait, List.mem_cons_of_mem _ harrival, hdeadline ▸ heq⟩
    cases happens.becomes hw with
    | @arrives token kind wait lease hevent =>
      subst hevent
      exact ⟨now, wait, List.mem_cons_self, rfl⟩
    | stays hmem => exact hearlier hmem ⟨rfl, rfl, rfl⟩ rfl
    | told hmem => exact hearlier hmem ⟨rfl, rfl, rfl⟩ rfl
    | waits hmem => exact hearlier hmem ⟨rfl, rfl, rfl⟩ rfl
    | givesUp hmem => exact hearlier hmem ⟨rfl, rfl, rfl⟩ rfl

/-- No owner name comes in twice. -/
theorem newcomer_unique (course : Course history room) {x y : Instant × Event} {owner : Owner}
    (hx : x ∈ history) (hy : y ∈ history) (hxo : x.2.newOwner? = some owner)
    (hyo : y.2.newOwner? = some owner) : x = y := by
  induction course with
  | start => cases hx
  | @event history room next now event course happens fresh ih =>
    have hold {z : Instant × Event} (hz : z ∈ history) (hzo : z.2.newOwner? = some owner) :
        event.newOwner? ≠ some owner := fun hnew =>
      fresh owner hnew (List.mem_filterMap.2 ⟨z, hz, hzo⟩)
    rcases List.mem_cons.1 hx with rfl | hx
    · rcases List.mem_cons.1 hy with rfl | hy
      · rfl
      · exact absurd hxo (hold hy hyo)
    · rcases List.mem_cons.1 hy with rfl | hy
      · exact absurd hyo (hold hx hxo)
      · exact ih hx hy

end Course

/-! ## A waiter that is attended to -/

/-- Courses of events in time, in which the waiter of one owner name is attended to: time passes
only while it has no reason to look. -/
inductive Attended (owner : Owner) : Instant → History → Room → Prop
  | start (now : Instant) : Attended owner now [] .empty
  | elapse {now later : Instant} {history : History} {room : Room}
      (run : Attended owner now history room) (hle : now ≤ later)
      (hattended : ∀ waiter ∈ room.waiters, waiter.token.owner = owner →
        ∀ instant, now ≤ instant → instant < later → waiter.isDue instant = false) :
      Attended owner later history room
  | event {now : Instant} {history : History} {room next : Room} {event : Event}
      (run : Attended owner now history room) (happens : Happens now room event next)
      (fresh : ∀ owner ∈ event.newOwner?, owner ∉ history.owners) :
      Attended owner now ((now, event) :: history) next

/-- A waiter has been refused a lock at an instant: it has looked and given up in a room where the
lock was not to be had. -/
def Refused (owner : Owner) (instant : Instant) (token : LockToken) (kind : Kind)
    (history : History) : Prop :=
  ∃ later waiter earlier room, history = later ++ (instant, .looked waiter .givesUp) :: earlier ∧
    waiter.token = token ∧ waiter.leaving = false ∧ Attended owner instant earlier room ∧
    ¬room.Admissible instant token kind

namespace Attended

variable {owner : Owner} {now : Instant} {history : History} {room : Room} {waiter : Waiter}

/-- Whether anyone is attended to or not, it is a course of events. -/
theorem course (run : Attended owner now history room) : Course history room := by
  induction run with
  | start => exact .start
  | elapse run hle hattended ih => exact ih
  | event run happens fresh ih => exact ih.event happens fresh

/-- Nothing has happened later than now. -/
theorem le_now (run : Attended owner now history room) {x : Instant × Event} (hx : x ∈ history) :
    x.1 ≤ now := by
  induction run with
  | start => cases hx
  | elapse run hle hattended ih => exact Nat.le_trans (ih hx) hle
  | event run happens fresh ih =>
    rcases List.mem_cons.1 hx with rfl | hx
    · exact Nat.le_refl _
    · exact ih hx

/-- A waiter that is attended to has been so at every event before, up to its instant. -/
theorem before (run : Attended owner now history room) {later earlier : History} {instant : Instant}
    {event : Event} (hhistory : history = later ++ (instant, event) :: earlier) :
    ∃ old new, Attended owner instant earlier old ∧ Happens instant old event new := by
  induction run generalizing later with
  | start =>
    have hsome := List.append_ne_nil_of_right_ne_nil later
      (List.cons_ne_nil (instant, event) earlier)
    exact absurd hhistory.symm hsome
  | elapse run hle hattended ih => exact ih hhistory
  | event run happens fresh ih =>
    cases later with
    | nil =>
      cases hhistory
      exact ⟨_, _, run, happens⟩
    | cons last later =>
      rw [List.cons_append, List.cons.injEq] at hhistory
      exact ih hhistory.2

/-- The waiter does not outstay its deadline, and one that is about to leave has just been refused
the lock at its deadline. -/
theorem in_time (run : Attended owner now history room) (hw : waiter ∈ room.waiters)
    (howner : waiter.token.owner = owner) :
    now ≤ waiter.deadline ∧ (waiter.leaving = true →
      now = waiter.deadline ∧ Refused owner now waiter.token waiter.kind history) := by
  induction run generalizing waiter with
  | start => cases hw
  | @elapse now later history room run hle hattended ih =>
    obtain ⟨hbefore, hleaving⟩ := ih hw howner
    rcases Nat.eq_or_lt_of_le hle with rfl | hlt
    · exact ⟨hbefore, hleaving⟩
    · have hstill := hattended waiter hw howner
      constructor
      · -- Had its wake-up come by then, it would have been due in the meantime.
        have hwake : later ≤ waiter.wakeAt := by
          refine Nat.le_of_not_lt fun hwoken => ?_
          have hasleep := hstill (max now waiter.wakeAt) (Nat.le_max_left _ _)
            (Nat.max_lt.2 ⟨hlt, hwoken⟩)
          rw [Waiter.isDue, Bool.or_eq_false_iff, decide_eq_false_iff_not] at hasleep
          exact hasleep.2 (Nat.le_max_right _ _)
        exact Nat.le_trans hwake (run.course.wakeAt_le_deadline hw)
      · intro hl
        have hdue := hstill now (Nat.le_refl _) hlt
        simp [Waiter.isDue, hl] at hdue
  | @event now history room next event run happens fresh ih =>
    have hold {w : Waiter} (hmem : w ∈ room.waiters) (ho : w.token.owner = owner) :
        now ≤ w.deadline ∧ (w.leaving = true →
          now = w.deadline ∧ Refused owner now w.token w.kind ((now, event) :: history)) := by
      obtain ⟨hbefore, hleaving⟩ := ih hmem ho
      refine ⟨hbefore, fun hl => ?_⟩
      obtain ⟨hnow, later, w', earlier, r, rfl, hrefused⟩ := hleaving hl
      exact ⟨hnow, (now, event) :: later, w', earlier, r, rfl, hrefused⟩
    cases happens.becomes hw with
    | arrives => exact ⟨Nat.le_add_right _ _, nofun⟩
    | stays hmem => exact hold hmem howner
    | told hmem =>
      have htold := hold hmem howner
      exact htold
    | @waits w hmem hl =>
      refine ⟨(hold hmem howner).1, fun hleaving => ?_⟩
      exact absurd (hl.symm.trans hleaving) Bool.false_ne_true
    | @givesUp w hmem hl hevent hdeadline hrefused =>
      subst hevent
      have hbefore := (hold hmem howner).1
      refine ⟨hbefore, fun _ => ⟨Nat.le_antisymm hbefore hdeadline, ?_⟩⟩
      exact ⟨[], w, history, room, rfl, rfl, hl, run, hrefused⟩

/-- A waiter that is attended to answers by its deadline. While it waits, its wake-up and the
present are no later than that, and a look lets it in if the lock is to be had, even at the
deadline, unless the clock cannot represent the end of its lease and it crashes; else it gives up at
the deadline, and waits on before. If it has given up and leaves, it does so at the deadline, having
been refused the lock there. With no time to wait, all this happens at once. -/
theorem decided_by_deadline {token : LockToken} (run : Attended token.owner now history room)
    {arrival : Instant} {kind : Kind} {wait : Duration} {lease : Option Duration}
    (harrival : (arrival, .entered token kind wait lease) ∈ history) :
    (∀ waiter, room.waiter? token.owner = some waiter →
      waiter.wakeAt ≤ arrival + wait ∧ now ≤ arrival + wait ∧ (wait = 0 → now = arrival) ∧
      (waiter.leaving = false →
        ((room.look now token.owner).1 = .admitted ↔
          room.Admissible now token kind ∧ ∀ span ∈ lease, now + span < Instant.limit) ∧
        ((room.look now token.owner).1 = .crashes .clockOverflow ↔
          room.Admissible now token kind ∧ ∃ span ∈ lease, Instant.limit ≤ now + span) ∧
        ((room.look now token.owner).1 = .givesUp ↔
          ¬room.Admissible now token kind ∧ now = arrival + wait) ∧
        ((room.look now token.owner).1 = .waits ↔
          ¬room.Admissible now token kind ∧ now < arrival + wait))) ∧
    ∀ later instant waiter earlier, history = later ++ (instant, .left waiter) :: earlier →
      waiter.token.owner = token.owner → waiter.leaving = true →
        instant = arrival + wait ∧ Refused token.owner instant token kind earlier := by
  constructor
  · intro waiter hfound
    obtain ⟨hw, howner⟩ := Room.mem_of_waiter? hfound
    obtain ⟨arrival', wait', hmem, hdeadline⟩ := run.course.arrival_of_waiter hw
    cases run.course.newcomer_unique hmem harrival (congrArg some howner) rfl
    have hnow := (run.in_time hw rfl).1
    have hwake := run.course.wakeAt_le_deadline hw
    rw [hdeadline] at hnow hwake
    refine ⟨hwake, hnow, fun hwait => ?_, fun hl => ?_⟩
    · subst hwait
      exact Nat.le_antisymm hnow (run.le_now harrival)
    · obtain ⟨hadmitted, hcrashes, hgivesUp, hwaits⟩ := Room.look_iff now hfound hl
      rw [hdeadline] at hgivesUp hwaits
      have hlast : arrival + wait ≤ now ↔ now = arrival + wait :=
        ⟨Nat.le_antisymm hnow, fun heq => heq ▸ Nat.le_refl _⟩
      exact ⟨hadmitted, hcrashes, hgivesUp.trans (and_congr_right fun _ => hlast), hwaits⟩
  · intro later instant waiter earlier hhistory howner hl
    obtain ⟨old, new, hrun, happens⟩ := run.before hhistory
    cases happens with
    | left hfound =>
      obtain ⟨hw, -⟩ := Room.mem_of_waiter? hfound
      obtain ⟨hinstant, hrefused⟩ := (hrun.in_time hw howner).2 hl
      obtain ⟨arrival', wait', hmem, hdeadline⟩ := hrun.course.arrival_of_waiter hw
      have hmem' : (arrival', .entered waiter.token waiter.kind wait' waiter.lease) ∈ history := by
        rw [hhistory]
        exact List.mem_append_right _ (List.mem_cons_of_mem _ hmem)
      cases run.course.newcomer_unique hmem' harrival (congrArg some howner) rfl
      exact ⟨hinstant.trans hdeadline, hrefused⟩

/-- A fair acquisition waits twenty instants in vain for a lock that is held for good: at its
deadline it would give up, and when it has left it has been refused the lock there. -/
theorem decided_by_deadline_of_refused : ∃ history room waiter next,
    Attended "b" 21 history room ∧ room.waiter? "b" = some waiter ∧
      ((room.look 21 "b").1 = .givesUp ↔ ¬room.Admissible 21 ⟨"k", "b"⟩ .fair ∧ 21 = 1 + 20) ∧
      Attended "b" 21
        ((21, .left { waiter with leaving := true }) :: (21, .looked waiter .givesUp) :: history)
        next ∧
      Refused "b" 21 ⟨"k", "b"⟩ .fair ((21, .looked waiter .givesUp) :: history) := by
  have tried := (@Attended.start "b" 0).event (@Happens.tried 0 _ ⟨"k", "a"⟩ none) (by decide)
  have passed : Attended "b" 1 _ _ := tried.elapse (by decide) nofun
  have entered := passed.event (@Happens.entered 1 _ ⟨"k", "b"⟩ .fair 20 none _ rfl) (by decide)
  have waits := entered.event (@Happens.looked 1 _ "b" _ rfl) (by decide)
  have asleep : Attended "b" 21 _ _ :=
    waits.elapse (by decide) fun waiter hw _ instant _ hlt => by
      obtain rfl := List.mem_singleton.1 hw
      exact decide_eq_false (Nat.not_le.2 hlt)
  have givesUp := asleep.event (@Happens.looked 21 _ "b" _ rfl) (by decide)
  have left := givesUp.event (@Happens.left 21 _ "b" _ rfl) (by decide)
  have hlast := ((@decided_by_deadline _ _ _ ⟨"k", "b"⟩ asleep _ _ _ _
    (.tail _ (.head _))).1 _ rfl).2.2.2 rfl
  have hleft := (@decided_by_deadline _ _ _ ⟨"k", "b"⟩ left _ _ _ _
    (.tail _ (.tail _ (.tail _ (.head _))))).2 [] 21 _ _ rfl rfl rfl
  exact ⟨_, _, _, _, asleep, rfl, hlast.2.2.1, left, hleft.2⟩

end Attended

end Turnstile.Lock
