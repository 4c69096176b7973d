import Turnstile.Proofs.Session.Requests

/-!
# What operations on sessions change

An operation has one session of its own and leaves all others alone, whichever calls the store
fails. If it succeeds, its session is what it says: written as it is answered, removed, or at most
prolonged. If it is refused, its session is as it was, too, with one exception: a logout uses the
session before it removes it, so if the removal fails, a sliding session has been prolonged.
-/

namespace Turnstile

/-! ## What fails goes on failing -/

namespace Store.Observed

/-- A call does not change which calls fail. -/
theorem failures_serve {store next : Observed} {call : Call}
    {answer : Except StoreError call.Answer} (h : serve call store = .ok (answer, next)) :
    next.failures = store.failures := by
  obtain ⟨-, -, -, rfl⟩ | ⟨-, -, -, -, -, rfl⟩ := serve_eq_ok h
  · rfl
  · rfl

/-- A program does not change which calls fail. -/
theorem failures_run {α : Type} {p : Program α} {store next : Observed} {a : α}
    (h : p.run serve keep store = .ok (a, next)) : next.failures = store.failures := by
  induction p generalizing store with
  | done =>
    cases h
    rfl
  | ask call rest ih =>
    change (serve call store >>= fun x => (rest x.1).run serve keep x.2) = _ at h
    cases hserve : serve call store with
    | error crash =>
      rw [hserve] at h
      cases h
    | ok served =>
      rw [hserve] at h
      exact (ih _ h).trans (failures_serve hserve)
  | tell line rest ih =>
    have hrest := ih h
    exact hrest

end Store.Observed

namespace Session

open Store (Observed Entry)

/-! ## Removals -/

/-- From one store to the other an entry has been removed, and nothing else has changed. -/
structure Drops (sessionKey : String) (store next : Observed) : Prop where
  now : next.now = store.now
  live : ∀ key, next.live key = if sessionKey = key then none else store.live key

/-- Lines that are logged afterwards change nothing. -/
theorem Drops.logged {sessionKey : String} {store next : Observed}
    (h : Drops sessionKey store next) (severity : Severity) (text : String) :
    Drops sessionKey store (next.logged severity text) := ⟨h.now, h.live⟩

/-- A session that is removed need not have been prolonged before. -/
theorem Prolongs.trans_drops {sessionKey : String} {span? : Option Duration}
    {store mid next : Observed} (h : Prolongs sessionKey span? store mid)
    (h' : Drops sessionKey mid next) : Drops sessionKey store next := by
  refine ⟨h'.now.trans h.now, fun key => ?_⟩
  rw [h'.live, h.live]
  split <;> rfl

/-- A session is prolonged before nothing has changed. -/
theorem Prolongs.trans_spares {sessionKey : String} {span? : Option Duration}
    {store mid next : Observed} (h : Prolongs sessionKey span? store mid) (h' : Spares mid next) :
    Prolongs sessionKey span? store next :=
  ⟨h'.now.trans h.now, fun key => (h'.live key).trans (h.live key)⟩

/-- A removal that comes to an end has failed and changed nothing, or has told whether there was a
live entry, which is gone. -/
theorem delete_cases {ε : Type} {store next : Observed} {key : String}
    {wrap : Store.StoreError → ε} {answer : Except ε Bool}
    (hperform : Observed.perform (Store.Action.ask (.delete key) wrap) store =
      .ok (answer, next)) :
    (∃ fault, store.failures.lookup "delete" = some fault ∧ answer = .error (wrap fault) ∧
      Spares store next) ∨
    (answer = .ok (store.live key).isSome ∧ Drops key store next) := by
  obtain ⟨outcome, hserve, rfl⟩ := Observed.perform_ask_eq_ok hperform
  obtain ⟨fault, hfails, rfl, rfl⟩ | ⟨-, found, memory, hdelete, rfl, rfl⟩ :=
    Observed.serve_eq_ok hserve
  · exact .inl ⟨fault, hfails, rfl, rfl, rfl, fun _ => rfl⟩
  · cases hdelete
    refine .inr ⟨?_, rfl, store.memory.live_delete store.now key⟩
    exact congrArg Except.ok (store.memory.delete_eq store.now key)

/-! ## What each operation may change -/

/-- A write has been refused without a trace, or its session is the record of the context that it
answers, with the time of its caller type. -/
inductive Writes (repository : Repository) (bindingKey : String) (moment : Moment)
    (store next : Observed) : Except IdentityError Context → Prop
  | refused {e : IdentityError} (h : Spares store next) :
      Writes repository bindingKey moment store next (.error e)
  | stored {context : Context} {callerType : CallerType}
      (htype : repository.callerType? context.callerType = some callerType)
      (h : Puts (callerType.sessionKey bindingKey)
        ⟨(Record.begin context moment.unixMs callerType.ttl?).toBytes,
          callerType.ttl?.map (store.now + ·)⟩ store next) :
      Writes repository bindingKey moment store next (.ok context)

/-- An invalidation has been refused without a trace, or there is no session any more. -/
inductive Removes (repository : Repository) (name bindingKey : String) (store next : Observed) :
    Except IdentityError Bool → Prop
  | refused {e : IdentityError} (h : Spares store next) :
      Removes repository name bindingKey store next (.error e)
  | removed {callerType : CallerType} (htype : repository.callerType? name = some callerType)
      (h : Drops (callerType.sessionKey bindingKey) store next) :
      Removes repository name bindingKey store next
        (.ok (store.live (callerType.sessionKey bindingKey)).isSome)

/-- The use of a token has told nobody and left no trace, or told the context that the token finds,
whose session has been prolonged at most. -/
inductive Uses (repository : Repository) (token : String) (store next : Observed) :
    Option Context → Prop
  | refused (h : Spares store next) : Uses repository token store next none
  | used {callerType : CallerType} {sessionKey : String} {context : Context}
      (finds : repository.Finds store token callerType sessionKey context)
      (h : Prolongs sessionKey (prolongation? store callerType) store next) :
      Uses repository token store next (some context)

/-- A logout has been refused without a trace, or the session that its token finds has been removed.
If only the removal has failed, the session has been used. -/
inductive LogsOut (repository : Repository) (token : String) (store next : Observed) :
    Except IdentityError Bool → Prop
  | refused {e : IdentityError} (h : Spares store next) :
      LogsOut repository token store next (.error e)
  | nobody (h : Spares store next) : LogsOut repository token store next (.ok false)
  | halfway {callerType : CallerType} {sessionKey : String} {context : Context}
      {fault : Store.StoreError}
      (finds : repository.Finds store token callerType sessionKey context)
      (hfails : store.failures.lookup "delete" = some fault)
      (h : Prolongs sessionKey (prolongation? store callerType) store next) :
      LogsOut repository token store next (.error (.ofStore fault))
  | removed {callerType : CallerType} {sessionKey : String} {context : Context}
      (finds : repository.Finds store token callerType sessionKey context)
      (h : Drops sessionKey store next) : LogsOut repository token store next (.ok true)

namespace Repository

variable {repository : Repository} {store next : Observed}

/-! ## Each operation in turn -/

theorem writes_save {context : Context} {bindingKey : String} {moment : Moment}
    {answer : Except IdentityError Context}
    (hperform : Observed.perform (repository.save context bindingKey moment) store =
      .ok (answer, next)) : Writes repository bindingKey moment store next answer := by
  obtain ⟨e, rfl, hspares⟩ | ⟨callerType, bound, htype, hbind, rfl, hputs⟩ := save_cases hperform
  · exact .refused hspares
  · have hsame : (repository.withCurrentToken bound moment).callerType = context.callerType :=
      (callerType_withCurrentToken repository bound moment).trans (callerType_of_bind hbind)
    rw [← hsame] at htype
    exact .stored htype hputs

theorem writes_login {context : Context} {bindingKey : String} {moment : Moment}
    {answer : Except IdentityError Context}
    (hperform : Observed.perform (repository.login context bindingKey moment) store =
      .ok (answer, next)) : Writes repository bindingKey moment store next answer := by
  obtain ⟨e, hsave, rfl⟩ | ⟨stored, mid, hsave, hrest⟩ := Observed.perform_bind_eq_ok hperform
  · exact writes_save hsave
  · cases hrest
    cases writes_save hsave with
    | stored htype hputs => exact .stored htype (hputs.logged _ _)

theorem writes_saveForDevice {context : Context} {binding : DeviceBinding} {moment : Moment}
    {answer : Except IdentityError Context}
    (hperform : Observed.perform (repository.saveForDevice context binding moment) store =
      .ok (answer, next)) : Writes repository binding.deviceId moment store next answer := by
  obtain ⟨e, rfl, hspares⟩ | ⟨-, mid, -, -, -, hspares, hsave⟩ := saveForDevice_cases hperform
  · exact .refused hspares
  · cases writes_save hsave with
    | refused h => exact .refused (hspares.trans h)
    | stored htype h =>
      have hputs := h.of_spares hspares
      rw [hspares.now] at hputs
      exact .stored htype hputs

theorem removes_invalidate {name bindingKey : String} {answer : Except IdentityError Bool}
    (hperform : Observed.perform (repository.invalidate name bindingKey) store =
      .ok (answer, next)) : Removes repository name bindingKey store next answer := by
  obtain ⟨e, -, rfl, rfl⟩ | ⟨callerType, hsettings, hrest⟩ :=
    Observed.perform_of_bind_eq_ok hperform
  · exact .refused (.refl _)
  have htype := settingsFor_eq_ok.1 hsettings
  obtain ⟨e, hdelete, rfl⟩ | ⟨removed, mid, hdelete, hrest⟩ := Observed.perform_bind_eq_ok hrest
  · obtain ⟨fault, -, -, hspares⟩ | ⟨hok, -⟩ := delete_cases hdelete
    · exact .refused hspares
    · cases hok
  · obtain ⟨fault, -, herror, -⟩ | ⟨hok, hdrops⟩ := delete_cases hdelete
    · cases herror
    · cases hok
      have hlogged : answer = .ok (store.live (callerType.sessionKey bindingKey)).isSome ∧
          Drops (callerType.sessionKey bindingKey) store next := by
        cases hremoved : (store.live (callerType.sessionKey bindingKey)).isSome with
        | false =>
          rw [hremoved] at hrest
          cases hrest
          exact ⟨rfl, hdrops⟩
        | true =>
          rw [hremoved] at hrest
          cases hrest
          exact ⟨rfl, hdrops.logged _ _⟩
      rw [hlogged.1]
      exact .removed htype hlogged.2

theorem uses_authenticate {token : String} {answer : Except ResolveError Context}
    (hperform : Observed.perform (repository.authenticate token) store = .ok (answer, next)) :
    Uses repository token store next answer.toOption := by
  obtain ⟨e, hlocate, rfl⟩ | ⟨located, mid, hlocate, hrest⟩ :=
    Observed.perform_bind_eq_ok hperform
  · obtain ⟨_, _, _, hok, -⟩ | ⟨_, -, hspares, -⟩ := locate_cases hlocate
    · cases hok
    · exact .refused hspares
  · cases hrest
    obtain ⟨callerType, sessionKey, context, hok, finds, hprolongs⟩ | ⟨e, herror, -⟩ :=
      locate_cases hlocate
    · cases hok
      exact .used finds hprolongs
    · cases herror

/-- What comes of a resolve error changes nothing: it is an error or the answer that stands for
nobody. -/
theorem recover_cases {α : Type} {token : String} {e : ResolveError} {nobody : α}
    {answer : Except IdentityError α}
    (hperform : Observed.perform (recover token e >>= fun _ => pure nobody) store =
      .ok (answer, next)) :
    Spares store next ∧ ((∃ e, answer = .error e) ∨ answer = .ok nobody) := by
  obtain ⟨told, severity, text, hrecover⟩ := perform_recover store token e
  have hlogged := (Spares.refl store).logged severity text
  rw [Observed.perform_bind, hrecover] at hperform
  cases told with
  | error e' =>
    cases hperform
    exact ⟨hlogged, .inl ⟨e', rfl⟩⟩
  | ok _ =>
    cases hperform
    exact ⟨hlogged, .inr rfl⟩

theorem uses_resolve {token : String} {answer : Except IdentityError (Option Context)}
    (hperform : Observed.perform (repository.resolve token) store = .ok (answer, next)) :
    Uses repository token store next answer.toOption.join := by
  obtain ⟨outcome, mid, hauth, hrest⟩ := Observed.perform_lift_bind_eq_ok hperform
  have huses := uses_authenticate hauth
  cases outcome with
  | ok context =>
    cases hrest
    exact huses
  | error e =>
    cases huses with
    | refused hspares =>
      obtain ⟨hspares', ⟨e', rfl⟩ | rfl⟩ := recover_cases hrest
      · exact .refused (hspares.trans hspares')
      · exact .refused (hspares.trans hspares')

theorem logsOut_logout {token : String} {answer : Except IdentityError Bool}
    (hperform : Observed.perform (repository.logout token) store = .ok (answer, next)) :
    LogsOut repository token store next answer := by
  obtain ⟨outcome, mid, hlocate, hrest⟩ := Observed.perform_lift_bind_eq_ok hperform
  obtain ⟨callerType, sessionKey, context, rfl, finds, hprolongs⟩ | ⟨e, rfl, hspares, -⟩ :=
    locate_cases hlocate
  · have hfailures : mid.failures = store.failures := Observed.failures_run hlocate
    dsimp only at hrest
    obtain ⟨e, hdelete, rfl⟩ | ⟨removed, last, hdelete, hrest⟩ :=
      Observed.perform_bind_eq_ok hrest
    · obtain ⟨fault, hfails, herror, hspares⟩ | ⟨hok, -⟩ := delete_cases hdelete
      · cases herror
        rw [hfailures] at hfails
        exact .halfway finds hfails (hprolongs.trans_spares hspares)
      · cases hok
    · obtain ⟨fault, -, herror, -⟩ | ⟨-, hdrops⟩ := delete_cases hdelete
      · cases herror
      · cases hrest
        exact .removed finds ((hprolongs.trans_drops hdrops).logged _ _)
  · obtain ⟨hspares', ⟨e', rfl⟩ | rfl⟩ := recover_cases hrest
    · exact .refused (hspares.trans hspares')
    · exact .nobody (hspares.trans hspares')

/-- The time of a live session begins anew, or fails to do so, unless the instant of its expiry
cannot be represented. -/
theorem exists_refresh {callerType : CallerType} {sessionKey : String} {entry : Entry}
    (hlive : store.live sessionKey = some entry)
    (hlimit : ∀ ttl ∈ callerType.renewal?, store.now + ttl < Instant.limit) :
    ∃ next, Observed.perform (refresh callerType sessionKey) store = .ok (.ok (), next) := by
  unfold refresh
  unfold CallerType.renewal? at hlimit
  cases hslides : callerType.sliding with
  | false => exact ⟨store, rfl⟩
  | true =>
    rw [hslides, if_pos rfl] at hlimit
    cases httl : callerType.ttl? with
    | none => exact ⟨store, rfl⟩
    | some ttl =>
      have hserve : ∃ outcome after, Observed.serve (.expire sessionKey ttl) store =
          .ok (outcome, after) := by
        cases hfails : store.failures.lookup "expire" with
        | some fault => exact ⟨_, _, Observed.serve_of_fails store hfails⟩
        | none =>
          have hexpire : ∃ answer, store.memory.serve store.now (.expire sessionKey ttl) =
              .ok answer :=
            ⟨_, (Store.Memory.expire_of_live hlive).2 ⟨hlimit ttl httl, rfl, rfl⟩⟩
          obtain ⟨answer, hexpire⟩ := hexpire
          have hserves := @Observed.serve_of_serves store (.expire sessionKey ttl) hfails
          rw [hexpire] at hserves
          exact ⟨_, _, hserves⟩
      obtain ⟨outcome, after, hserve⟩ := hserve
      rw [if_pos rfl]
      dsimp only
      rw [Observed.perform_bind, Observed.perform_attempt_of_serve hserve]
      cases outcome with
      | error fault => exact ⟨_, rfl⟩
      | ok renewed => exact ⟨_, rfl⟩

/-- What a token finds is located, unless the store cannot be read or the new expiry of the session
cannot be represented. -/
theorem exists_locate {token : String} {callerType : CallerType} {sessionKey : String}
    {context : Context} (finds : repository.Finds store token callerType sessionKey context)
    (hreads : store.failures.lookup "get" = none)
    (hlimit : ∀ ttl ∈ callerType.renewal?, store.now + ttl < Instant.limit) :
    ∃ next, Observed.perform (repository.locate token) store =
      .ok (.ok ⟨context, sessionKey⟩, next) := by
  obtain ⟨claims, entry, haddress, hlive, hverify⟩ := finds
  obtain ⟨mid, hspares, hread⟩ := perform_read store sessionKey ResolveError.store
  rw [hreads, hlive] at hread
  have hlive' := (hspares.live sessionKey).trans hlive
  obtain ⟨next, hrefresh⟩ := exists_refresh hlive' (by rw [hspares.now]; exact hlimit)
  rw [locate, Observed.perform_bind, Observed.perform_of, haddress]
  dsimp only
  rw [Observed.perform_bind, hread]
  dsimp only [Option.elim_none, Option.map_some]
  rw [Observed.perform_bind, Observed.perform_of, hverify]
  dsimp only
  rw [Observed.perform_bind, hrefresh]
  exact ⟨next, rfl⟩

/-- If only the removal fails, a logout has used the session that its token finds. -/
theorem perform_logout_of_fails {token : String} {callerType : CallerType} {sessionKey : String}
    {context : Context} {fault : Store.StoreError}
    (finds : repository.Finds store token callerType sessionKey context)
    (hreads : store.failures.lookup "get" = none)
    (hlimit : ∀ ttl ∈ callerType.renewal?, store.now + ttl < Instant.limit)
    (hfails : store.failures.lookup "delete" = some fault) :
    ∃ next, Observed.perform (repository.logout token) store =
        .ok (.error (.ofStore fault), next) ∧
      Prolongs sessionKey (prolongation? store callerType) store next := by
  obtain ⟨mid, hlocate⟩ := exists_locate finds hreads hlimit
  have hprolongs : Prolongs sessionKey (prolongation? store callerType) store mid := by
    obtain ⟨callerType', sessionKey', context', hok, finds', hprolongs⟩ | ⟨e, herror, -⟩ :=
      locate_cases hlocate
    · obtain ⟨claims, entry, haddress, -⟩ := finds
      obtain ⟨rfl, rfl⟩ := finds'.eq_address haddress
      exact hprolongs
    · cases herror
  have hserve : Observed.serve (.delete sessionKey) mid =
      .ok (.error fault, mid.served (.delete sessionKey) mid.memory) := by
    refine Observed.serve_of_fails mid ?_
    rw [Observed.failures_run hlocate]
    exact hfails
  have hspares : Spares mid (mid.served (.delete sessionKey) mid.memory) :=
    ⟨rfl, rfl, fun _ => rfl⟩
  refine ⟨_, ?_, hprolongs.trans_spares hspares⟩
  rw [logout, Observed.perform_bind, Observed.perform_lift, hlocate]
  dsimp only
  rw [Observed.perform_bind, Observed.perform_ask_of_serve hserve]
  rfl

/-- Over a store that may fail any calls, an operation that comes to an end has changed one session
at most. If it succeeds, that is its own one: a write has stored the context that it answers, a
removal has left nothing, and the use of a token has prolonged its session at most. If it is
refused, or the token is not authenticated, nothing has changed, unless a logout has used the
session that its token finds and failed to remove it. -/
theorem changes_own_session_only (repository : Repository) (store next : Observed) :
    (∀ context bindingKey moment answer,
      Observed.perform (repository.save context bindingKey moment) store = .ok (answer, next) →
        Writes repository bindingKey moment store next answer) ∧
    (∀ context bindingKey moment answer,
      Observed.perform (repository.login context bindingKey moment) store = .ok (answer, next) →
        Writes repository bindingKey moment store next answer) ∧
    (∀ context binding moment answer,
      Observed.perform (repository.saveForDevice context binding moment) store =
        .ok (answer, next) →
          Writes repository binding.deviceId moment store next answer) ∧
    (∀ name bindingKey answer,
      Observed.perform (repository.invalidate name bindingKey) store = .ok (answer, next) →
        Removes repository name bindingKey store next answer) ∧
    (∀ token answer,
      Observed.perform (repository.logout token) store = .ok (answer, next) →
        LogsOut repository token store next answer) ∧
    (∀ token answer,
      Observed.perform (repository.authenticate token) store = .ok (answer, next) →
        Uses repository token store next answer.toOption) ∧
    ∀ token answer,
      Observed.perform (repository.resolve token) store = .ok (answer, next) →
        Uses repository token store next answer.toOption.join :=
  ⟨fun _ _ _ _ => writes_save, fun _ _ _ _ => writes_login, fun _ _ _ _ => writes_saveForDevice,
    fun _ _ _ => removes_invalidate, fun _ _ => logsOut_logout, fun _ _ => uses_authenticate,
    fun _ _ => uses_resolve⟩

end Repository

/-! ## A logout that does not come through -/

/-- The store with the session of a minute, forty seconds after it has been saved, in which nothing
can be removed. -/
def undeletable : Observed :=
  { Observed.start with
    memory := ⟨Table.empty.insert "session:d:x" minuteEntry⟩
    now := Duration.ofSecs 40
    failures := [("delete", .unavailable "delete refused")] }

theorem live_undeletable : undeletable.live "session:d:x" = some minuteEntry := rfl

/-- The session in it once it has been used. -/
def usedEntry : Entry := { minuteEntry with expiresAt := some (Duration.ofSecs 100) }

/-- A logout there fails, and the session, which had twenty seconds left, has a minute. -/
theorem logout_undeletable : ∃ e next,
    Observed.perform (minutesOnly.logout minuteToken) undeletable = .ok (.error e, next) ∧
      next.live "session:d:x" = some usedEntry := by
  have finds : minutesOnly.Finds undeletable minuteToken minuteOnDevice "session:d:x"
      minuteContext := ⟨minuteClaims, minuteEntry, address_minute, live_undeletable, verify_minute⟩
  obtain ⟨next, hperform, hprolongs⟩ :=
    Repository.perform_logout_of_fails finds rfl (by decide) rfl
  refine ⟨_, next, hperform, ?_⟩
  rw [hprolongs.live, if_pos rfl, live_undeletable]
  rfl

/-- The session is the one that the token finds, and the removal is all that has failed. -/
theorem changes_own_session_only_of_undeletable : ∃ e next,
    Observed.perform (minutesOnly.logout minuteToken) undeletable = .ok (.error e, next) ∧
      undeletable.live "session:d:x" = some minuteEntry ∧
      next.live "session:d:x" = some usedEntry ∧
      LogsOut minutesOnly minuteToken undeletable next (.error e) := by
  obtain ⟨e, next, hperform, hlive⟩ := logout_undeletable
  obtain ⟨-, -, -, -, hlogout, -⟩ :=
    Repository.changes_own_session_only minutesOnly undeletable next
  exact ⟨e, next, hperform, live_undeletable, hlive, hlogout minuteToken (.error e) hperform⟩

/-- An operation that is answered by an error does not always leave all sessions as they are. -/
theorem failed_but_prolonged : ∃ repository store token e next key,
    Observed.perform (Repository.logout repository token) store = .ok (.error e, next) ∧
      next.live key ≠ store.live key := by
  obtain ⟨e, next, hperform, hlive⟩ := logout_undeletable
  refine ⟨minutesOnly, undeletable, minuteToken, e, next, "session:d:x", hperform, ?_⟩
  rw [hlive, live_undeletable]
  intro hsame
  have hexpiry : Duration.ofSecs 100 = Duration.ofSecs 60 :=
    Option.some.inj (congrArg Entry.expiresAt (Option.some.inj hsame))
  exact absurd hexpiry (by decide)

end Session
end Turnstile
