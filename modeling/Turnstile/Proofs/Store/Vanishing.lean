import Turnstile.Proofs.Store.Live

/-!
# Entries that cease to exist

Seen from outside, the store in memory is one in which an entry is gone at the instant of its
expiry. That lapsed entries are kept until a call comes across them does not show, and neither
does a read that removes such an entry long after it has found it: the removal is judged by the
instant at which the read began, and what was written since has not lapsed then.
-/

namespace Turnstile.Store

/-- What happens at a store. A read is two events, between which anything else may happen. -/
inductive Event
  | wait (span : Duration)
  /-- A call is served; of a read only its first phase. -/
  | call (call : Call)
  /-- One of the reads that have found a lapsed entry goes on to its second phase. -/
  | purge (place : Nat)
  /-- The entries are counted. -/
  | count

/-- What is told of an event. -/
inductive Report
  | nothing
  | value (value : Option Bytes)
  | flag (answer : Bool)
  | number (count : Nat)
  deriving DecidableEq

namespace Event

/-- How much time passes. -/
def span : Event → Duration
  | .wait span => span
  | _ => 0

/-- For how long an entry is to exist from now on. -/
def ttl? : Event → Option Duration
  | .call (.set _ _ ttl) => ttl
  | .call (.expire _ ttl) => some ttl
  | _ => none

/-- Whether the clock can show the expiry of every entry that is written or renewed. -/
def Representable : Instant → List Event → Prop
  | _, [] => True
  | now, event :: more =>
    (∀ ttl ∈ event.ttl?, now + ttl < Instant.limit) ∧ Representable (now + event.span) more

/-- Whether all these expiries can be shown is a matter of counting. -/
instance decidableRepresentable :
    (now : Instant) → (events : List Event) → Decidable (Representable now events)
  | _, [] => inferInstanceAs (Decidable True)
  | now, event :: more =>
    have := decidableRepresentable (now + event.span) more
    inferInstanceAs (Decidable ((∀ ttl ∈ event.ttl?, now + ttl < Instant.limit) ∧ _))

end Event

/-! ## A store whose entries vanish -/

/-- A store in which an entry ceases to exist at its expiry: there is none whose time is over. -/
structure Vanishing where
  now : Instant
  entries : Table Entry
  current : ∀ key entry, entries.get? key = some entry → entry.isLive now = true

namespace Vanishing

/-- The store of some entries at an instant, without those whose time is over. -/
def keep (now : Instant) (entries : Table Entry) : Vanishing where
  now := now
  entries := entries.filter fun _ entry => entry.isLive now
  current key entry h := by
    rw [Table.get?_filter] at h
    exact (Option.filter_eq_some_iff.1 h).2

/-- A store without entries at the beginning of time. -/
def start : Vanishing := keep 0 ∅

/-- The entry under a key. -/
def get? (store : Vanishing) (key : String) : Option Entry := store.entries.get? key

/-- What an event does, and what is told of it. An entry that is there exists, so that no event
asks for its expiry; and a read is over when it has been answered. -/
def step (store : Vanishing) : Event → Report × Vanishing
  | .wait span => (.nothing, keep (store.now + span) store.entries)
  | .call (.get key) => (.value ((store.get? key).map (·.value)), store)
  | .call (.set key value ttl) =>
    (.nothing, keep store.now (store.entries.insert key ⟨value, ttl.map (store.now + ·)⟩))
  | .call (.delete key) =>
    (.flag (store.get? key).isSome, keep store.now (store.entries.erase key))
  | .call (.expire key ttl) =>
    match store.get? key with
    | some entry =>
      let renewed := { entry with expiresAt := some (store.now + ttl) }
      (.flag true, keep store.now (store.entries.insert key renewed))
    | none => (.flag false, store)
  | .purge _ => (.nothing, store)
  | .count => (.number store.entries.size, store)

/-- What is told of some events, and the store that they leave. -/
def play (store : Vanishing) : List Event → List Report × Vanishing
  | [] => ([], store)
  | event :: more =>
    let (report, next) := store.step event
    let (reports, last) := next.play more
    (report :: reports, last)

@[simp] theorem now_keep (now : Instant) (entries : Table Entry) : (keep now entries).now = now :=
  rfl

/-- Of some entries those are there whose time is not over. -/
@[simp] theorem get?_keep (now : Instant) (entries : Table Entry) (key : String) :
    (keep now entries).get? key = (entries.get? key).filter (·.isLive now) :=
  Table.get?_filter ..

end Vanishing

/-! ## The store in memory under the same events -/

/-- A store in memory with the reads that have found a lapsed entry: under which key, and at which
instant they have begun. -/
structure SharedMemory where
  now : Instant
  memory : Memory
  readers : List (String × Instant)

namespace SharedMemory

/-- A store without entries at the beginning of time. -/
def start : SharedMemory := ⟨0, .empty, []⟩

/-- What an event does, and what is told of it. -/
def step (store : SharedMemory) : Event → Except Crash (Report × SharedMemory)
  | .wait span => .ok (.nothing, { store with now := store.now + span })
  | .call (.get key) =>
    let reading := store.memory.read store.now key
    let readers :=
      if reading = .lapsed then (key, store.now) :: store.readers else store.readers
    .ok (.value reading.value?, { store with readers })
  | .call (.set key value ttl) => do
    return (.nothing, { store with memory := ← store.memory.set store.now key value ttl })
  | .call (.delete key) =>
    let (answer, memory) := store.memory.delete store.now key
    .ok (.flag answer, { store with memory })
  | .call (.expire key ttl) => do
    let (answer, memory) ← store.memory.expire store.now key ttl
    return (.flag answer, { store with memory })
  | .purge place =>
    match store.readers[place]? with
    | some (key, since) =>
      .ok (.nothing, { store with
        memory := store.memory.purge since key, readers := store.readers.eraseIdx place })
    | none => .ok (.nothing, store)
  | .count => .ok (.number (store.memory.liveCount store.now), store)

/-- What is told of some events, and the store that they leave. -/
def play (store : SharedMemory) : List Event → Except Crash (List Report × SharedMemory)
  | [] => .ok ([], store)
  | event :: more => do
    let (report, next) ← store.step event
    let (reports, last) ← next.play more
    return (report :: reports, last)

/-- The key that an event is about. -/
def key? (store : SharedMemory) : Event → Option String
  | .call call => some call.key
  | .purge place => store.readers[place]?.map (·.1)
  | .wait _ | .count => none

end SharedMemory

/-! ## What a late removal does -/

/-- An entry that has not lapsed has not lapsed before. -/
theorem Entry.isLive_of_later {entry : Entry} {earlier later : Instant} (hle : earlier ≤ later)
    (h : entry.isLive later = true) : entry.isLive earlier = true := by
  simp only [isLive, Option.all_eq_true, decide_eq_true_eq] at h ⊢
  intro expiry hexpiry
  exact Nat.lt_of_le_of_lt hle (h expiry hexpiry)

namespace Memory

variable {memory : Memory} {since now : Instant}

/-- The second phase of a read is about one key. -/
theorem get?_purge_of_ne {key probe : String} (hne : key ≠ probe) :
    (memory.purge since key).entries.get? probe = memory.entries.get? probe := by
  unfold purge
  cases memory.entries.get? key with
  | none => rfl
  | some entry =>
    dsimp only
    split
    · rfl
    · rw [Table.get?_erase, if_neg (Ne.symm hne)]

/-- What is live when the second phase of a read runs stays where it is, since it was live when the
read began, or had not been written yet. -/
theorem get?_purge_of_live {key probe : String} {entry : Entry} (hle : since ≤ now)
    (hlive : memory.live now probe = some entry) :
    (memory.purge since key).entries.get? probe = some entry := by
  obtain ⟨hget, hnow⟩ := Option.filter_eq_some_iff.1 hlive
  by_cases hk : key = probe
  · subst hk
    have hsince : entry.isLive since = true := entry.isLive_of_later hle hnow
    simp only [purge, hget]
    rw [if_pos hsince]
    exact hget
  · rw [get?_purge_of_ne hk, hget]

/-- The second phase of a read makes no difference, however late it runs. -/
theorem live_purge (hle : since ≤ now) (key probe : String) :
    (memory.purge since key).live now probe = memory.live now probe := by
  by_cases hk : key = probe
  · subst hk
    unfold live purge
    cases hget : memory.entries.get? key with
    | none => simp [hget]
    | some entry =>
      dsimp only
      split
      · rw [hget]
      · rename_i hsince
        have hnow : entry.isLive now = false := by
          rw [Bool.eq_false_iff]
          exact fun h => hsince (entry.isLive_of_later hle h)
        rw [Table.get?_erase, if_pos rfl]
        simp [Option.filter, hnow]
  · rw [live, live, get?_purge_of_ne hk]

/-- A renewal is about one key. -/
theorem get?_expire_of_ne {key probe : String} {ttl : Duration} {answer : Bool} {next : Memory}
    (h : memory.expire now key ttl = .ok (answer, next)) (hne : key ≠ probe) :
    next.entries.get? probe = memory.entries.get? probe := by
  unfold expire at h
  cases hget : memory.entries.get? key with
  | none =>
    rw [hget] at h
    cases h
    rfl
  | some entry =>
    simp only [hget] at h
    split at h
    · cases hafter : now.after ttl with
      | error crash =>
        rw [hafter] at h
        cases h
      | ok expiry =>
        rw [hafter] at h
        cases h
        rw [Table.get?_insert, if_neg hne]
    · cases h
      rw [Table.get?_erase, if_neg (Ne.symm hne)]

/-- The first phase of a read yields the value of the live entry. -/
theorem value?_read (memory : Memory) (now : Instant) (key : String) :
    (memory.read now key).value? = (memory.live now key).map (·.value) := by
  unfold read live
  cases memory.entries.get? key with
  | none => rfl
  | some entry => by_cases hl : entry.isLive now <;> simp [hl, Reading.value?, Option.filter]

end Memory

/-! ## Step by step -/

/-- The store in memory stands for a store whose entries vanish: its live entries are the entries
of that one, and its reads have begun before. -/
structure SharedMemory.StandsFor (store : SharedMemory) (ideal : Vanishing) : Prop where
  now : ideal.now = store.now
  live : ∀ key, store.memory.live store.now key = ideal.get? key
  readers : ∀ reader ∈ store.readers, reader.2 ≤ store.now

namespace SharedMemory

variable {store : SharedMemory} {ideal : Vanishing}

theorem standsFor_start : start.StandsFor .start :=
  ⟨rfl, fun _ => rfl, fun _ h => absurd h List.not_mem_nil⟩

namespace StandsFor

/-- As time passes, lapsed entries vanish. -/
theorem wait (h : store.StandsFor ideal) (span : Duration) :
    { store with now := store.now + span : SharedMemory }.StandsFor
      (.keep (ideal.now + span) ideal.entries) where
  now := by rw [Vanishing.now_keep, h.now]
  live key := by
    rw [store.memory.live_later (Nat.le_add_right store.now span), h.live, h.now]
    exact (Vanishing.get?_keep ..).symm
  readers reader hreader := Nat.le_trans (h.readers reader hreader) (Nat.le_add_right _ _)

/-- A read that finds a lapsed entry has begun now. -/
theorem reads (h : store.StandsFor ideal) (key : String) (lapsed : Prop) [Decidable lapsed] :
    { store with
      readers := if lapsed then (key, store.now) :: store.readers else store.readers :
        SharedMemory }.StandsFor ideal where
  now := h.now
  live := h.live
  readers reader hreader := by
    dsimp only at hreader
    split at hreader
    · rcases List.mem_cons.1 hreader with rfl | hreader
      · exact Nat.le_refl _
      · exact h.readers reader hreader
    · exact h.readers reader hreader

/-- What the memory has live after a call, the other store has in its entries. -/
theorem served (h : store.StandsFor ideal) {memory : Memory} {entries : Table Entry}
    (hlive : ∀ key, memory.live store.now key = (entries.get? key).filter (·.isLive store.now)) :
    { store with memory }.StandsFor (.keep ideal.now entries) where
  now := by rw [Vanishing.now_keep, h.now]
  live key := by rw [Vanishing.get?_keep, h.now, hlive]
  readers := h.readers

/-- A change of the memory that makes no difference. -/
theorem idle (h : store.StandsFor ideal) {memory : Memory}
    (hlive : ∀ key, memory.live store.now key = store.memory.live store.now key) :
    { store with memory }.StandsFor ideal where
  now := h.now
  live key := (hlive key).trans (h.live key)
  readers := h.readers

/-- What is there is live. -/
theorem filter_get? (h : store.StandsFor ideal) (key : String) :
    (ideal.entries.get? key).filter (·.isLive store.now) = store.memory.live store.now key := by
  have hcurrent := (store.memory.live_later (Nat.le_refl store.now) key).symm
  rw [h.live] at hcurrent ⊢
  exact hcurrent

/-- The live entries are those that are there. -/
theorem liveCount (h : store.StandsFor ideal) :
    store.memory.liveCount store.now = ideal.entries.size := by
  have hentries : (store.memory.entries.filter fun _ entry => entry.isLive store.now) =
      ideal.entries := Table.ext_get? fun key => (Table.get?_filter ..).trans (h.live key)
  rw [Memory.liveCount, hentries]

/-- A write that the clock can show puts its entry in the place of what was there. -/
theorem set (h : store.StandsFor ideal) (key : String) (value : Bytes)
    (ttl : Option Duration) (hlimit : ∀ span ∈ ttl, store.now + span < Instant.limit) :
    ∃ memory, store.memory.set store.now key value ttl = .ok memory ∧
      { store with memory }.StandsFor
        (.keep ideal.now (ideal.entries.insert key ⟨value, ttl.map (ideal.now + ·)⟩)) := by
  refine ⟨_, (store.memory.set_eq_ok store.now).2 ⟨hlimit, rfl⟩, h.served fun probe => ?_⟩
  rw [Memory.live_insert, Table.get?_insert, h.now]
  split
  · rfl
  · exact (h.filter_get? probe).symm

/-- A removal. -/
theorem delete (h : store.StandsFor ideal) (key : String) :
    { store with memory := (store.memory.delete store.now key).2 }.StandsFor
      (.keep ideal.now (ideal.entries.erase key)) := by
  refine h.served fun probe => ?_
  rw [Memory.live_delete, Table.get?_erase]
  by_cases hk : key = probe
  · rw [if_pos hk, if_pos hk.symm, Option.filter_none]
  · rw [if_neg hk, if_neg (Ne.symm hk), h.filter_get?]

/-- The time of an entry that is there begins anew. -/
theorem expire_of_some (h : store.StandsFor ideal) {key : String} {entry : Entry}
    (hget : ideal.get? key = some entry) {ttl : Duration}
    (hlimit : store.now + ttl < Instant.limit) :
    ∃ memory, store.memory.expire store.now key ttl = .ok (true, memory) ∧
      { store with memory }.StandsFor (.keep ideal.now
        (ideal.entries.insert key { entry with expiresAt := some (ideal.now + ttl) })) := by
  have hlive : store.memory.live store.now key = some entry := (h.live key).trans hget
  refine ⟨_, (Memory.expire_of_live hlive).2 ⟨hlimit, rfl, rfl⟩, h.served fun probe => ?_⟩
  rw [Memory.live_insert, Table.get?_insert, h.now]
  split
  · rfl
  · exact (h.filter_get? probe).symm

/-- The time of an entry that is not there does not. -/
theorem expire_of_none (h : store.StandsFor ideal) {key : String} (hget : ideal.get? key = none)
    (ttl : Duration) :
    ∃ memory, store.memory.expire store.now key ttl = .ok (false, memory) ∧
      { store with memory }.StandsFor ideal := by
  have hlive : store.memory.live store.now key = none := (h.live key).trans hget
  obtain ⟨memory, hexpire, hsame⟩ := Memory.expire_of_lapsed hlive ttl
  exact ⟨memory, hexpire, h.idle hsame⟩

/-- A removal that a read has left to do makes no difference. -/
theorem purge (h : store.StandsFor ideal) {place : Nat} {key : String} {since : Instant}
    (hreader : store.readers[place]? = some (key, since)) :
    { store with
      memory := store.memory.purge since key
      readers := store.readers.eraseIdx place : SharedMemory }.StandsFor ideal where
  now := h.now
  live probe := by
    have hle : since ≤ store.now := h.readers _ (List.mem_of_getElem? hreader)
    exact (Memory.live_purge hle key probe).trans (h.live probe)
  readers reader hmem := h.readers reader (List.mem_of_mem_eraseIdx hmem)

/-- Of every event the same is told, and the stores stand for each other after it. -/
theorem step (h : store.StandsFor ideal) (event : Event)
    (hlimit : ∀ ttl ∈ event.ttl?, store.now + ttl < Instant.limit) :
    ∃ next, store.step event = .ok ((ideal.step event).1, next) ∧
      next.StandsFor (ideal.step event).2 ∧ next.now = store.now + event.span := by
  cases event with
  | wait span => exact ⟨_, rfl, h.wait span, rfl⟩
  | count =>
    refine ⟨store, ?_, h, rfl⟩
    simp only [SharedMemory.step, Vanishing.step, h.liveCount]
  | purge place =>
    simp only [SharedMemory.step]
    split
    · rename_i key since hreader
      exact ⟨_, rfl, h.purge hreader, rfl⟩
    · exact ⟨store, rfl, h, rfl⟩
  | call call =>
    cases call with
    | get key =>
      refine ⟨_, ?_, h.reads key (store.memory.read store.now key = .lapsed), rfl⟩
      simp only [SharedMemory.step, Vanishing.step, Memory.value?_read, h.live]
    | set key value ttl =>
      obtain ⟨memory, hset, hstands⟩ := h.set key value ttl hlimit
      refine ⟨_, ?_, hstands, rfl⟩
      simp only [SharedMemory.step, hset]
      rfl
    | delete key =>
      refine ⟨_, ?_, h.delete key, rfl⟩
      simp only [SharedMemory.step, Vanishing.step, Memory.delete_eq, h.live]
    | expire key ttl =>
      cases hget : ideal.get? key with
      | some entry =>
        obtain ⟨memory, hexpire, hstands⟩ := h.expire_of_some hget (hlimit ttl rfl)
        simp only [SharedMemory.step, Vanishing.step, hget, hexpire]
        exact ⟨_, rfl, hstands, rfl⟩
      | none =>
        obtain ⟨memory, hexpire, hstands⟩ := h.expire_of_none hget ttl
        simp only [SharedMemory.step, Vanishing.step, hget, hexpire]
        exact ⟨_, rfl, hstands, rfl⟩

/-- The same is told of all events, whether lapsed entries stay or vanish. -/
theorem play (h : store.StandsFor ideal) (events : List Event)
    (hlimit : Event.Representable store.now events) :
    ∃ last, store.play events = .ok ((ideal.play events).1, last) ∧
      last.StandsFor (ideal.play events).2 := by
  induction events generalizing store ideal with
  | nil => exact ⟨store, rfl, h⟩
  | cons event more ih =>
    obtain ⟨hevent, hmore⟩ := hlimit
    obtain ⟨next, hstep, hnext, hnow⟩ := h.step event hevent
    obtain ⟨last, hplay, hlast⟩ := ih hnext (hnow ▸ hmore)
    refine ⟨last, ?_, hlast⟩
    simp only [SharedMemory.play, Vanishing.play, hstep, bind, Except.bind, hplay]
    rfl

end StandsFor

/-! ## What events leave alone -/

/-- An event about one key changes nothing under any other. -/
theorem get?_step_of_ne {event : Event} {report : Report} {next : SharedMemory}
    (hstep : store.step event = .ok (report, next)) {key : String}
    (hother : store.key? event ≠ some key) :
    next.memory.entries.get? key = store.memory.entries.get? key := by
  cases event with
  | wait span =>
    cases hstep
    rfl
  | count =>
    cases hstep
    rfl
  | purge place =>
    simp only [step] at hstep
    split at hstep
    · rename_i probe since hreader
      have hne : probe ≠ key := by simpa [key?, hreader] using hother
      cases hstep
      exact Memory.get?_purge_of_ne hne
    · cases hstep
      rfl
  | call call =>
    have hne : call.key ≠ key := fun h => hother (congrArg some h)
    cases call with
    | get probe =>
      cases hstep
      rfl
    | delete probe =>
      cases hstep
      exact (Table.get?_erase ..).trans (if_neg (Ne.symm hne))
    | set probe value ttl =>
      simp only [step] at hstep
      cases hset : store.memory.set store.now probe value ttl with
      | error crash =>
        rw [hset] at hstep
        cases hstep
      | ok memory =>
        rw [hset] at hstep
        cases hstep
        obtain ⟨-, rfl⟩ := (store.memory.set_eq_ok store.now).1 hset
        exact (Table.get?_insert ..).trans (if_neg hne)
    | expire probe ttl =>
      simp only [step] at hstep
      cases hexpire : store.memory.expire store.now probe ttl with
      | error crash =>
        rw [hexpire] at hstep
        cases hstep
      | ok result =>
        rw [hexpire] at hstep
        cases hstep
        exact Memory.get?_expire_of_ne hexpire hne

/-- A write puts its value and its expiry in the place of what was there, if anything was. -/
theorem get?_step_set {key : String} {value : Bytes} {ttl : Option Duration}
    {report : Report} {next : SharedMemory}
    (hstep : store.step (.call (.set key value ttl)) = .ok (report, next)) :
    next.memory.entries.get? key = some ⟨value, ttl.map (store.now + ·)⟩ := by
  simp only [step] at hstep
  cases hset : store.memory.set store.now key value ttl with
  | error crash =>
    rw [hset] at hstep
    cases hstep
  | ok memory =>
    rw [hset] at hstep
    cases hstep
    obtain ⟨-, rfl⟩ := (store.memory.set_eq_ok store.now).1 hset
    exact Table.get?_insert_self ..

/-- A removal that a read has left to do spares what is live. -/
theorem StandsFor.get?_step_purge (h : store.StandsFor ideal) {place : Nat} {report : Report}
    {next : SharedMemory} (hstep : store.step (.purge place) = .ok (report, next)) {key : String}
    {entry : Entry} (hlive : store.memory.live store.now key = some entry) :
    next.memory.entries.get? key = some entry := by
  simp only [SharedMemory.step] at hstep
  split at hstep
  · rename_i probe since hreader
    cases hstep
    exact Memory.get?_purge_of_live (h.readers _ (List.mem_of_getElem? hreader)) hlive
  · cases hstep
    exact (Option.filter_eq_some_iff.1 hlive).1

/-- Whatever happens to a store in memory, the same is told as of a store whose entries cease to
exist at their expiry, and the entries of that one are the live ones. On the way, a late removal
spares what is live, a write replaces value and expiry, and nothing is changed under other keys. -/
theorem play_eq_vanishing (events : List Event) (hlimit : Event.Representable 0 events) :
    ∃ last, start.play events = .ok ((Vanishing.start.play events).1, last) ∧
      last.now = (Vanishing.start.play events).2.now ∧
      (∀ key, last.memory.live last.now key = (Vanishing.start.play events).2.get? key) ∧
      (∀ place report next, last.step (.purge place) = .ok (report, next) → ∀ key entry,
        last.memory.live last.now key = some entry →
          next.memory.entries.get? key = some entry) ∧
      (∀ key value ttl report next, last.step (.call (.set key value ttl)) = .ok (report, next) →
        next.memory.entries.get? key = some ⟨value, ttl.map (last.now + ·)⟩) ∧
      ∀ event report next, last.step event = .ok (report, next) → ∀ key,
        last.key? event ≠ some key →
          next.memory.entries.get? key = last.memory.entries.get? key := by
  obtain ⟨last, hplay, hstands⟩ := standsFor_start.play events hlimit
  refine ⟨last, hplay, hstands.now.symm, hstands.live, ?_, ?_, ?_⟩
  · intro place report next hstep key entry hlive
    exact hstands.get?_step_purge hstep hlive
  · intro key value ttl report next hstep
    exact get?_step_set hstep
  · intro event report next hstep key hother
    exact get?_step_of_ne hstep hother

/-- A session lapses, is found lapsed by a read, and is written anew before the read removes it. -/
def overtaken : List Event := [
  .call (.set "k" [1] (some (Duration.ofSecs 1))), .wait (Duration.ofSecs 2), .call (.get "k"),
  .call (.set "k" [2] (some (Duration.ofSecs 60))), .purge 0, .call (.get "k"), .count,
  .wait (Duration.ofSecs 60), .call (.delete "k"), .count]

/-- The new session is found, and ceases to exist at its own expiry. -/
theorem play_eq_vanishing_of_overtaken : ∃ last, start.play overtaken = .ok ([
    .nothing, .nothing, .value none, .nothing, .nothing, .value (some [2]), .number 1, .nothing,
    .flag false, .number 0], last) := by
  obtain ⟨last, hplay, -⟩ := play_eq_vanishing overtaken (by decide)
  have htold : (Vanishing.start.play overtaken).1 = [
      .nothing, .nothing, .value none, .nothing, .nothing, .value (some [2]), .number 1, .nothing,
      .flag false, .number 0] := by decide +kernel
  exact ⟨last, htold ▸ hplay⟩

end SharedMemory
end Turnstile.Store
