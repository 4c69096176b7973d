import Turnstile.Proofs.Lock.Events

/-!
# Courses of events in a waiting room

A course begins in an empty room and takes one event after another, in any order that the
room allows. The only thing asked of it is that every acquisition has an owner name of its
own. Instants are kept with the events; whether they are in order is a matter of its own.
-/

namespace Turnstile.Lock

/-- What has happened in a room with its instants, the latest event first. -/
abbrev History := List (Instant × Event)

namespace History

/-- The owner names that have come into the room. -/
def owners (history : History) : List Owner := history.filterMap (·.2.newOwner?)

theorem owners_cons (now : Instant) (event : Event) (history : History) :
    owners ((now, event) :: history) = event.newOwner?.toList ++ history.owners := by
  cases h : event.newOwner? <;> simp [owners, h]

/-- Names that have come into the room are not forgotten. -/
theorem mem_owners_cons {history : History} {owner : Owner} (h : owner ∈ history.owners)
    (now : Instant) (event : Event) : owner ∈ owners ((now, event) :: history) := by
  rw [owners_cons]
  exact List.mem_append_right _ h

/-- Whether time has not gone backwards, up to now. -/
def InOrder (now : Instant) (history : History) : Prop :=
  (now :: history.map (·.1)).Pairwise (· ≥ ·)

instance (now : Instant) (history : History) : Decidable (InOrder now history) :=
  inferInstanceAs (Decidable (List.Pairwise _ _))

/-- In order of time nothing has happened after now. -/
theorem InOrder.le {now : Instant} {history : History} (h : InOrder now history)
    {x : Instant × Event} (hx : x ∈ history) : x.1 ≤ now :=
  (List.pairwise_cons.1 h).1 _ (List.mem_map_of_mem hx)

end History

/-- The rooms that courses of events lead to. -/
inductive Course : History → Room → Prop
  | start : Course [] .empty
  | event {history : History} {room next : Room} {now : Instant} {event : Event}
      (course : Course history room) (happens : Happens now room event next)
      (fresh : ∀ owner ∈ event.newOwner?, owner ∉ history.owners) :
      Course ((now, event) :: history) next

namespace Course

variable {history : History} {room : Room}

/-- Everyone in the room has come into it under its owner name. -/
theorem owner_of_waiter (h : Course history room) {waiter : Waiter}
    (hw : waiter ∈ room.waiters) : waiter.token.owner ∈ history.owners := by
  induction h generalizing waiter with
  | start => cases hw
  | @event history room next now event course happens fresh ih =>
    rcases happens.waiter_origin hw with ⟨w, hmem, hsame⟩ | ⟨wait, rfl⟩
    · have hold := ih hmem
      rw [hsame.1] at hold
      exact History.mem_owners_cons hold now event
    · exact List.mem_cons_self

/-- Whoever has acquired a lock has come into the room under its owner name. -/
theorem owner_of_acquisition (h : Course history room) {x : Instant × Event} {token : LockToken}
    {lease : Option Duration} (hx : x ∈ history) (hacq : x.2.acquisition? = some (token, lease)) :
    token.owner ∈ history.owners := by
  induction h with
  | start => cases hx
  | @event history room next now event course happens fresh ih =>
    rcases List.mem_cons.1 hx with rfl | hx
    · rcases happens.acquisition_cases hacq with ⟨-, ⟨he, -, -⟩ | ⟨waiter, hw, -, rfl, -, -⟩⟩
      · change event = _ at he
        subst he
        exact List.mem_cons_self
      · exact History.mem_owners_cons (course.owner_of_waiter hw) now event
    · exact History.mem_owners_cons (ih hx) now event

end Course
end Turnstile.Lock
