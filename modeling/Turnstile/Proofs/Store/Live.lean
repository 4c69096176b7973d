import Turnstile.Store.Memory

/-!
# The live entries of a store in memory

A call is told of live entries only, and what it does shows in the live entries alone: the
lapsed ones that are kept, or removed when a call comes across them, make no difference.
Every call is described by the live entry under each key before and after it.
-/

namespace Turnstile.Store

/-- What has lapsed stays so: of two instants the later one decides what is left. -/
theorem filter_later {α : Type} (expiresAt : α → Option Instant) {now later : Instant}
    (hle : now ≤ later) (found : Option α) :
    (found.filter fun x => (expiresAt x).all (now < ·)).filter
      (fun x => (expiresAt x).all (later < ·)) =
        found.filter fun x => (expiresAt x).all (later < ·) := by
  rw [Option.filter_filter]
  congr 1
  funext x
  rw [Bool.eq_iff_iff, Bool.and_eq_true]
  simp only [Option.all_eq_true, decide_eq_true_eq]
  constructor
  · exact And.right
  · intro h
    exact ⟨fun expiry he => Nat.lt_of_le_of_lt hle (h expiry he), h⟩

namespace Memory

variable (memory : Memory) (now : Instant)

/-- The entry under a key, if it is live. -/
def live (key : String) : Option Entry := (memory.entries.get? key).filter (·.isLive now)

/-- As time passes, entries only cease to be live. -/
theorem live_later {now later : Instant} (hle : now ≤ later) (key : String) :
    memory.live later key = (memory.live now key).filter (·.isLive later) :=
  (filter_later Entry.expiresAt hle _).symm

/-- The live entries after an entry is written. -/
theorem live_insert (key : String) (entry : Entry) (probe : String) :
    (Memory.mk (memory.entries.insert key entry)).live now probe =
      if key = probe then (some entry).filter (·.isLive now) else memory.live now probe := by
  simp only [live, Table.get?_insert]
  split <;> rfl

/-- The live entries after an entry is removed. -/
theorem live_erase (key probe : String) :
    (Memory.mk (memory.entries.erase key)).live now probe =
      if key = probe then none else memory.live now probe := by
  simp only [live, Table.get?_erase]
  by_cases hk : key = probe
  · simp [hk]
  · simp [hk, Ne.symm hk]

/-- Removing an entry that is not live makes no difference. -/
theorem live_erase_of_lapsed {memory : Memory} {now : Instant} {key : String}
    (h : memory.live now key = none) (probe : String) :
    (Memory.mk (memory.entries.erase key)).live now probe = memory.live now probe := by
  rw [live_erase]
  split
  · rename_i hk
    rw [← hk, h]
  · rfl

/-- A read yields the value of the live entry. -/
theorem get_eq (key : String) : (memory.get now key).1 = (memory.live now key).map (·.value) := by
  unfold get read live
  cases memory.entries.get? key with
  | none => rfl
  | some entry => by_cases hl : entry.isLive now <;> simp [hl, Reading.value?, Option.filter]

/-- A read of a live entry yields its value and leaves all entries as they are. -/
theorem get_of_live {memory : Memory} {now : Instant} {key : String} {entry : Entry}
    (h : memory.live now key = some entry) : memory.get now key = (some entry.value, memory) := by
  obtain ⟨hget, hl⟩ := Option.filter_eq_some_iff.1 h
  have hfound : memory.read now key = .found entry.value := by
    rw [read, hget]
    exact if_pos hl
  rw [get, hfound]
  rfl

/-- A read makes no difference. -/
theorem live_get (key probe : String) :
    (memory.get now key).2.live now probe = memory.live now probe := by
  unfold get read
  cases hget : memory.entries.get? key with
  | none => rfl
  | some entry =>
    by_cases hl : entry.isLive now
    · simp [hl]
    · have hnone : memory.live now key = none := by simp [live, hget, hl]
      simp only [hl, Bool.false_eq_true, if_false, purge, hget]
      exact live_erase_of_lapsed hnone probe

/-- A write succeeds if the instant of the expiry can be represented. -/
theorem set_eq_ok {key : String} {value : Bytes} {ttl : Option Duration} {next : Memory} :
    memory.set now key value ttl = .ok next ↔
      (∀ span ∈ ttl, now + span < Instant.limit) ∧
        next = ⟨memory.entries.insert key ⟨value, ttl.map (now + ·)⟩⟩ := by
  cases ttl with
  | none => simp [set, pure, Except.pure, bind, Except.bind, eq_comm]
  | some span =>
    by_cases hlimit : now + span < Instant.limit <;>
      simp [set, Instant.after, hlimit, pure, Except.pure, bind, Except.bind, Functor.map,
        Except.map, eq_comm]

/-- If it cannot, the program stops. -/
theorem set_of_overflow {span : Duration} (h : Instant.limit ≤ now + span) (key : String)
    (value : Bytes) : memory.set now key value (some span) = .error .clockOverflow := by
  have hafter : now.after span = .error .clockOverflow := if_neg (Nat.not_lt.2 h)
  rw [set, Option.mapM_some, hafter]
  rfl

/-- A removal tells whether there was a live entry. -/
theorem delete_eq (key : String) : (memory.delete now key).1 = (memory.live now key).isSome := by
  unfold delete live
  cases memory.entries.get? key with
  | none => rfl
  | some entry => by_cases hl : entry.isLive now <;> simp [hl]

/-- The live entries after a removal. -/
theorem live_delete (key probe : String) :
    (memory.delete now key).2.live now probe =
      if key = probe then none else memory.live now probe :=
  memory.live_erase now key probe

/-- The time of a live entry begins anew, if the instant of the expiry can be represented. -/
theorem expire_of_live {memory : Memory} {now : Instant} {key : String} {entry : Entry}
    (h : memory.live now key = some entry) {ttl : Duration} {answer : Bool} {next : Memory} :
    memory.expire now key ttl = .ok (answer, next) ↔
      now + ttl < Instant.limit ∧ answer = true ∧
        next = ⟨memory.entries.insert key { entry with expiresAt := some (now + ttl) }⟩ := by
  obtain ⟨hget, hl⟩ := Option.filter_eq_some_iff.1 h
  simp only [expire, hget]
  rw [if_pos hl]
  by_cases hlimit : now + ttl < Instant.limit <;>
    simp [Instant.after, hlimit, pure, Except.pure, bind, Except.bind, eq_comm]

/-- If it cannot be represented, the program stops. -/
theorem expire_of_overflow {memory : Memory} {now : Instant} {key : String} {entry : Entry}
    (h : memory.live now key = some entry) {ttl : Duration} (hlimit : Instant.limit ≤ now + ttl) :
    memory.expire now key ttl = .error .clockOverflow := by
  obtain ⟨hget, hl⟩ := Option.filter_eq_some_iff.1 h
  simp [expire, hget, hl, Instant.after, Nat.not_lt.2 hlimit, bind, Except.bind]

/-- Beginning the time of a lapsed entry anew makes no difference. -/
theorem expire_of_lapsed {memory : Memory} {now : Instant} {key : String}
    (h : memory.live now key = none) (ttl : Duration) :
    ∃ next, memory.expire now key ttl = .ok (false, next) ∧
      ∀ probe, next.live now probe = memory.live now probe := by
  unfold expire
  cases hget : memory.entries.get? key with
  | none => exact ⟨memory, rfl, fun _ => rfl⟩
  | some entry =>
    have hl : entry.isLive now = false := by simpa [live, hget] using h
    simp only [hl, Bool.false_eq_true, if_false]
    exact ⟨_, rfl, live_erase_of_lapsed h⟩

end Memory
end Turnstile.Store
