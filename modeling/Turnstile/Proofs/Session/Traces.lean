import Turnstile.Proofs.Session.Journal

/-!
# Reading and writing sessions in a store that may fail

A call that the store fails leaves every live entry as it is. So does a read that it serves, and a
write that it serves leaves the entry that was written. Of an operation that writes a session it
follows that it has failed and changed nothing, or has stored the context that it answers.
-/

namespace Turnstile

/-- A session that ends does not end at once. -/
theorem CallerType.ttl?_pos {callerType : CallerType} {ttl : Duration}
    (h : callerType.ttl? = some ttl) : 0 < ttl := by
  obtain ⟨secs, hsecs, rfl⟩ := Option.map_eq_some_iff.1 h
  have hpos : 0 < secs := by
    unfold ttlSecs? at hsecs
    split at hsecs
    · rename_i limit hlimit
      obtain ⟨hne, hsecs⟩ := Option.ite_none_left_eq_some.1 hsecs
      have hlimit : limit.toNat ≠ 0 := fun hzero => hne (UInt64.toNat_inj.1 hzero)
      rw [← Option.some.inj hsecs]
      exact Nat.pos_of_ne_zero hlimit
    · cases hsecs
  exact Nat.mul_pos (by decide) hpos

/-- A use that prolongs a session does not end it. -/
theorem CallerType.renewal?_pos {callerType : CallerType} {ttl : Duration}
    (h : callerType.renewal? = some ttl) : 0 < ttl :=
  ttl?_pos (Option.ite_none_right_eq_some.1 h).2

namespace Session

open Store (Observed Entry)

/-- From one store to the other no live entry has changed. -/
structure Spares (store next : Observed) : Prop where
  now : next.now = store.now
  failures : next.failures = store.failures
  live : ∀ key, next.live key = store.live key

namespace Spares

variable {store next last : Observed}

theorem refl (store : Observed) : Spares store store := ⟨rfl, rfl, fun _ => rfl⟩

theorem trans (h : Spares store next) (h' : Spares next last) : Spares store last :=
  ⟨h'.now.trans h.now, h'.failures.trans h.failures, fun key => (h'.live key).trans (h.live key)⟩

/-- Lines that are logged afterwards change nothing. -/
theorem logged (h : Spares store next) (severity : Severity) (text : String) :
    Spares store (next.logged severity text) := ⟨h.now, h.failures, h.live⟩

end Spares

/-- From one store to the other an entry has been written, and nothing else has changed. -/
structure Puts (sessionKey : String) (entry : Entry) (store next : Observed) : Prop where
  now : next.now = store.now
  failures : next.failures = store.failures
  live : ∀ key, next.live key = if sessionKey = key then some entry else store.live key

namespace Puts

variable {sessionKey : String} {entry : Entry} {store mid next : Observed}

/-- An entry is written after nothing has changed. -/
theorem of_spares (h : Spares store mid) (h' : Puts sessionKey entry mid next) :
    Puts sessionKey entry store next := by
  refine ⟨h'.now.trans h.now, h'.failures.trans h.failures, fun key => ?_⟩
  rw [h'.live, h.live]

/-- Lines that are logged afterwards change nothing. -/
theorem logged (h : Puts sessionKey entry store next) (severity : Severity) (text : String) :
    Puts sessionKey entry store (next.logged severity text) := ⟨h.now, h.failures, h.live⟩

/-- The entry has not lapsed at once. -/
theorem isLive (h : Puts sessionKey entry store next) : entry.isLive store.now = true := by
  have hlive : (next.memory.entries.get? sessionKey).filter (·.isLive next.now) = some entry :=
    (h.live sessionKey).trans (if_pos rfl)
  rw [h.now] at hlive
  exact (Option.filter_eq_some_iff.1 hlive).2

end Puts

/-- A read changes no live entry. It yields the value of the live entry, unless reads fail. -/
theorem perform_read {ε : Type} (store : Observed) (key : String) (wrap : Store.StoreError → ε) :
    ∃ next, Spares store next ∧
      Observed.perform (Store.Action.ask (.get key) wrap) store =
        .ok ((store.failures.lookup "get").elim (.ok ((store.live key).map (·.value)))
          fun fault => .error (wrap fault), next) := by
  cases hlookup : store.failures.lookup "get" with
  | some fault =>
    have hserve := @Observed.serve_of_fails store (.get key) fault hlookup
    have hspares : Spares store (store.served (.get key) store.memory) :=
      ⟨rfl, rfl, fun _ => rfl⟩
    exact ⟨_, hspares, Observed.perform_ask_of_serve hserve wrap⟩
  | none =>
    have hserve : Observed.serve (.get key) store = .ok (.ok (store.memory.get store.now key).1,
        store.served (.get key) (store.memory.get store.now key).2) :=
      Observed.serve_of_serves store hlookup
    rw [Store.Memory.get_eq] at hserve
    have hspares : Spares store (store.served (.get key) (store.memory.get store.now key).2) :=
      ⟨rfl, rfl, store.memory.live_get store.now key⟩
    exact ⟨_, hspares, Observed.perform_ask_of_serve hserve wrap⟩

/-- A read that comes to an end has changed no live entry, and has failed or yielded the value of
the live entry. -/
theorem spares_get {ε : Type} {store next : Observed} {key : String} {wrap : Store.StoreError → ε}
    {answer : Except ε (Option Bytes)}
    (hperform : Observed.perform (Store.Action.ask (.get key) wrap) store = .ok (answer, next)) :
    Spares store next ∧
      ((∃ fault, answer = .error (wrap fault)) ∨
        answer = .ok ((store.live key).map (·.value))) := by
  obtain ⟨next', hspares, hread⟩ := perform_read store key wrap
  obtain ⟨hanswer, rfl⟩ := Prod.mk.inj (Except.ok.inj (hread.symm.trans hperform))
  refine ⟨hspares, ?_⟩
  cases hlookup : store.failures.lookup "get" with
  | some fault =>
    rw [hlookup] at hanswer
    exact .inl ⟨fault, hanswer.symm⟩
  | none =>
    rw [hlookup] at hanswer
    exact .inr hanswer.symm

/-- A write that comes to an end has failed and changed nothing, or left its entry, which has not
lapsed at once. -/
theorem set_cases {ε : Type} {store next : Observed} {key : String} {value : Bytes}
    {ttl : Option Duration} (httl : ∀ span ∈ ttl, 0 < span) {wrap : Store.StoreError → ε}
    {answer : Except ε Unit}
    (hperform : Observed.perform (Store.Action.ask (.set key value ttl) wrap) store =
      .ok (answer, next)) :
    (∃ fault, answer = .error (wrap fault) ∧ Spares store next) ∨
      (answer = .ok () ∧ Puts key ⟨value, ttl.map (store.now + ·)⟩ store next) := by
  obtain ⟨outcome, hserve, rfl⟩ := Observed.perform_ask_eq_ok hperform
  obtain ⟨fault, -, rfl, rfl⟩ | ⟨-, found, memory, hset, rfl, rfl⟩ := Observed.serve_eq_ok hserve
  · exact .inl ⟨fault, rfl, rfl, rfl, fun _ => rfl⟩
  · have hwritten : store.memory.set store.now key value ttl = .ok memory := by
      simp only [Store.Memory.serve] at hset
      cases hmemory : store.memory.set store.now key value ttl with
      | error crash =>
        rw [hmemory] at hset
        cases hset
      | ok written =>
        rw [hmemory] at hset
        cases hset
        rfl
    obtain ⟨-, rfl⟩ := (Store.Memory.set_eq_ok ..).1 hwritten
    have hlasts : Entry.isLive ⟨value, ttl.map (store.now + ·)⟩ store.now := by
      cases ttl with
      | none => rfl
      | some span => exact decide_eq_true (Nat.lt_add_of_pos_right (httl span rfl))
    refine .inr ⟨rfl, rfl, rfl, fun probe => ?_⟩
    refine (store.memory.live_insert store.now key _ probe).trans ?_
    rw [Option.filter_some, if_pos hlasts]
    rfl

/-- The context in a stored entry that can be read. -/
def storedContext? (entry : Store.Entry) : Option Context :=
  (Record.ofBytes entry.value).toOption.map (·.context)

theorem storedContext?_eq_some {entry : Store.Entry} {context : Context} :
    storedContext? entry = some context ↔
      ∃ record, Record.ofBytes entry.value = .ok record ∧ record.context = context := by
  unfold storedContext?
  cases Record.ofBytes entry.value <;> simp [Except.toOption]

/-- The readable context under a key. -/
def known? (store : Observed) (key : String) : Option Context :=
  (store.live key).bind storedContext?

/-- Where nothing has changed, the same context is known. -/
theorem Spares.known? {store next : Observed} (h : Spares store next) (key : String) :
    known? next key = known? store key := by
  rw [Session.known?, h.live, Session.known?]

namespace Repository

variable {repository : Repository} {store next : Observed}

/-- A caller type that is known can be had. -/
theorem settingsFor_eq_ok {name : String} {callerType : CallerType} :
    repository.settingsFor name = .ok callerType ↔
      repository.callerType? name = some callerType := by
  unfold settingsFor
  split <;> simp_all

/-- Reading the session that there is changes nothing, and yields its context, unless reads
fail. -/
theorem perform_existing? (store : Observed) (key : String) :
    ∃ next, Spares store next ∧ Observed.perform (existing? key) store =
      .ok ((store.failures.lookup "get").elim (.ok (known? store key))
        fun fault => .error (.ofStore fault), next) := by
  obtain ⟨mid, hspares, hread⟩ := perform_read store key IdentityError.ofStore
  rw [existing?, Observed.perform_bind, hread]
  cases store.failures.lookup "get" with
  | some fault => exact ⟨mid, hspares, rfl⟩
  | none =>
    rw [known?]
    cases store.live key with
    | none => exact ⟨mid, hspares, rfl⟩
    | some entry =>
      rw [Option.map_some, Option.elim_none, Option.elim_none, Option.bind_some, storedContext?]
      dsimp only
      cases Record.ofBytes entry.value with
      | ok record => exact ⟨mid, hspares, rfl⟩
      | error fault => exact ⟨_, hspares.logged .warn _, rfl⟩

/-- Whether a device's write is admitted, and how it is refused. -/
def admission (existing : Option Context) (incoming : Context) (binding : DeviceBinding) :
    Except IdentityError Unit :=
  match existing with
  | none => if binding.isLogin then .ok () else .error (.noDeviceSession binding.deviceId)
  | some stored =>
    if mayReplace stored incoming binding then .ok ()
    else .error (.deviceSessionConflict binding.deviceId)

/-- The decision about a device's write changes nothing. -/
theorem perform_admitDeviceWrite (store : Observed) (existing : Option Context)
    (incoming : Context) (binding : DeviceBinding) :
    ∃ next, Spares store next ∧
      Observed.perform (admitDeviceWrite existing incoming binding) store =
        .ok (admission existing incoming binding, next) := by
  unfold admitDeviceWrite admission
  cases existing with
  | none => cases binding.isLogin <;> exact ⟨store, .refl store, rfl⟩
  | some stored =>
    dsimp only
    split
    · exact ⟨store, .refl store, rfl⟩
    · exact ⟨_, (Spares.refl store).logged .warn _, rfl⟩

/-- A save that comes to an end has failed and changed nothing, or stored the context that it
answers. -/
theorem save_cases {context : Context} {bindingKey : String} {moment : Moment}
    {answer : Except IdentityError Context}
    (hperform : Observed.perform (repository.save context bindingKey moment) store =
      .ok (answer, next)) :
    (∃ e, answer = .error e ∧ Spares store next) ∨
      ∃ callerType bound, repository.callerType? context.callerType = some callerType ∧
        bind context callerType bindingKey = .ok bound ∧
        answer = .ok (repository.withCurrentToken bound moment) ∧
        Puts (callerType.sessionKey bindingKey)
          ⟨(Record.begin (repository.withCurrentToken bound moment) moment.unixMs
            callerType.ttl?).toBytes, callerType.ttl?.map (store.now + ·)⟩ store next := by
  obtain ⟨e, -, rfl, rfl⟩ | ⟨callerType, hsettings, hbound⟩ :=
    Observed.perform_of_bind_eq_ok hperform
  · exact .inl ⟨e, rfl, .refl _⟩
  obtain ⟨e, -, rfl, rfl⟩ | ⟨bound, hbind, hstore⟩ := Observed.perform_of_bind_eq_ok hbound
  · exact .inl ⟨e, rfl, .refl _⟩
  dsimp only at hstore
  have httl : ∀ span ∈ callerType.ttl?, 0 < span := fun _ hspan => CallerType.ttl?_pos hspan
  obtain ⟨e, hset, rfl⟩ | ⟨_, mid, hset, hrest⟩ := Observed.perform_bind_eq_ok hstore
  · obtain ⟨-, -, hspares⟩ | ⟨hok, -⟩ := set_cases httl hset
    · exact .inl ⟨e, rfl, hspares⟩
    · cases hok
  · obtain ⟨_, herror, -⟩ | ⟨-, hputs⟩ := set_cases httl hset
    · cases herror
    · cases hrest
      exact .inr ⟨callerType, bound, settingsFor_eq_ok.1 hsettings, hbind, rfl,
        hputs.logged _ _⟩

/-- The context that a device's write saves: that of a login carries no token. -/
def incoming (context : Context) (binding : DeviceBinding) : Context :=
  if binding.isLogin then context.withoutToken else context

/-- Without its token a context is still that of its caller type and its principal. -/
theorem incoming_same (context : Context) (binding : DeviceBinding) :
    (incoming context binding).callerType = context.callerType ∧
      (incoming context binding).principalId = context.principalId := by
  unfold incoming
  split <;> exact ⟨rfl, rfl⟩

/-- A device's write fails before it has changed anything, or it is admitted and saves. -/
theorem perform_saveForDevice {context : Context} {callerType : CallerType}
    (htype : repository.callerType? context.callerType = some callerType)
    (hdevice : callerType.binding = .device) (binding : DeviceBinding) (moment : Moment) :
    ∃ mid, Spares store mid ∧
      ((∃ e, Observed.perform (repository.saveForDevice context binding moment) store =
          .ok (.error e, mid) ∧
        (store.failures.lookup "get" = none →
          admission (known? store (callerType.sessionKey binding.deviceId)) context binding =
            .error e)) ∨
      (admission (known? store (callerType.sessionKey binding.deviceId)) context binding = .ok () ∧
        Observed.perform (repository.saveForDevice context binding moment) store =
          Observed.perform (repository.save (incoming context binding) binding.deviceId moment)
            mid)) := by
  obtain ⟨found, hfound, hexisting⟩ :=
    perform_existing? store (callerType.sessionKey binding.deviceId)
  generalize known? store (callerType.sessionKey binding.deviceId) = existing at hexisting
  rw [saveForDevice, Observed.perform_bind, Observed.perform_of, settingsFor_eq_ok.2 htype]
  dsimp only
  rw [if_neg (not_not_intro hdevice), Observed.perform_bind, hexisting]
  cases hlookup : store.failures.lookup "get" with
  | some fault => exact ⟨found, hfound, .inl ⟨_, rfl, nofun⟩⟩
  | none =>
    obtain ⟨mid, hmid, hadmit⟩ := perform_admitDeviceWrite found existing context binding
    rw [Option.elim_none]
    dsimp only
    rw [Observed.perform_bind, hadmit]
    cases hadmission : admission existing context binding with
    | error e => exact ⟨mid, hfound.trans hmid, .inl ⟨e, rfl, fun _ => rfl⟩⟩
    | ok _ => exact ⟨mid, hfound.trans hmid, .inr ⟨rfl, rfl⟩⟩

/-- A device's write that comes to an end has failed and changed nothing, or has been admitted under
the caller type of a device and has come to the end of a save. -/
theorem saveForDevice_cases {context : Context} {binding : DeviceBinding} {moment : Moment}
    {answer : Except IdentityError Context}
    (hperform : Observed.perform (repository.saveForDevice context binding moment) store =
      .ok (answer, next)) :
    (∃ e, answer = .error e ∧ Spares store next) ∨
      ∃ callerType mid, repository.callerType? context.callerType = some callerType ∧
        callerType.binding = .device ∧
        admission (known? store (callerType.sessionKey binding.deviceId)) context binding =
          .ok () ∧
        Spares store mid ∧
        Observed.perform (repository.save (incoming context binding) binding.deviceId moment) mid =
          .ok (answer, next) := by
  obtain ⟨e, -, rfl, rfl⟩ | ⟨callerType, hsettings, hrest⟩ :=
    Observed.perform_of_bind_eq_ok hperform
  · exact .inl ⟨e, rfl, .refl _⟩
  have htype := settingsFor_eq_ok.1 hsettings
  by_cases hdevice : callerType.binding = .device
  · obtain ⟨mid, hmid, ⟨e, herror, -⟩ | ⟨hadmitted, hsave⟩⟩ :=
      perform_saveForDevice htype hdevice binding moment
    · cases herror.symm.trans hperform
      exact .inl ⟨e, rfl, hmid⟩
    · exact .inr ⟨callerType, mid, htype, hdevice, hadmitted, hmid, hsave.symm.trans hperform⟩
  · dsimp only at hrest
    rw [if_pos hdevice] at hrest
    cases hrest
    exact .inl ⟨_, rfl, .refl _⟩

end Repository

end Session
end Turnstile
