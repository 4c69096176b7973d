import Turnstile.Proofs.Session.Traces

/-!
# What operations leave behind

Each operation on sessions is followed to the store that it leaves. The live entries there
follow from the deeds of the operation and the live entries that it has found; what has been
observed of the operation makes no difference.
-/

namespace Turnstile.Session

open Store (Observed Entry Action Call)

/-- An operation leaves certain live entries, at the instant at which it has begun. -/
structure Leaves (store next : Observed) (live : String → Option Entry) : Prop where
  now : next.now = store.now
  failures : next.failures = []
  live : ∀ key, next.live key = live key

namespace Leaves

variable {store next last : Observed} {live : String → Option Entry}

theorem refl (h : store.failures = []) : Leaves store store store.live := ⟨rfl, h, fun _ => rfl⟩

/-- Where nothing has changed, the live entries remain. -/
theorem of_spares (h : store.failures = []) (h' : Spares store next) :
    Leaves store next store.live := ⟨h'.now, h'.failures.trans h, h'.live⟩

/-- Log lines make no difference. -/
theorem logged (h : Leaves store next live) (severity : Severity) (text : String) :
    Leaves store (next.logged severity text) live := ⟨h.now, h.failures, h.live⟩

/-- One part of an operation comes after another one. -/
theorem trans (h : Leaves store next live) {live' : String → Option Entry}
    (h' : Leaves next last live') : Leaves store last live' :=
  ⟨h'.now.trans h.now, h'.failures, h'.live⟩

/-- A call leaves what the memory has live after it. -/
theorem served (h : store.failures = []) (call : Call) {memory : Store.Memory}
    (hlive : ∀ key, memory.live store.now key = live key) :
    Leaves store (store.served call memory) live := ⟨rfl, h, hlive⟩

end Leaves

/-- The live entries after a deed. -/
def Deed.liveAfter (now : Instant) (live : String → Option Entry) (deed : Deed) (key : String) :
    Option Entry :=
  match deed with
  | .wrote sessionKey record ttl =>
    if sessionKey = key then
      (some ⟨record.toBytes, ttl.map (now + ·)⟩ : Option Entry).filter (·.isLive now)
    else live key
  | .removed sessionKey => if sessionKey = key then none else live key
  | .authenticated sessionKey callerType =>
    match callerType.renewal? with
    | some ttl =>
      if sessionKey = key then
        ((live key).map ({ · with expiresAt := some (now + ttl) })).filter (·.isLive now)
      else live key
    | none => live key

/-- The use of a session leaves other sessions alone. -/
theorem Deed.liveAfter_authenticated_of_ne {now : Instant} {live : String → Option Entry}
    {sessionKey key : String} (callerType : CallerType) (hk : sessionKey ≠ key) :
    (Deed.authenticated sessionKey callerType).liveAfter now live key = live key := by
  simp only [liveAfter, if_neg hk]
  split <;> rfl

/-- The live entries after some deeds. -/
def liveAfter (now : Instant) (live : String → Option Entry) (deeds : List Deed) :
    String → Option Entry :=
  deeds.foldr (fun deed live => deed.liveAfter now live) live

/-- The deeds of an operation do not depend on what has been observed before it. -/
theorem Leaves.deeds {store mid next : Observed} {deeds : List Deed}
    (h : Leaves store mid store.live)
    (h' : Leaves mid next (liveAfter mid.now mid.live deeds)) :
    Leaves store next (liveAfter store.now store.live deeds) := by
  have hlive : mid.live = store.live := funext h.live
  rw [h.now, hlive] at h'
  exact h.trans h'

/-! ## What calls leave behind -/

section Calls

variable {ε : Type} {store : Observed}

/-- A read yields the value of the live entry and leaves everything as it is. -/
theorem perform_get (h : store.failures = []) (key : String) (wrap : Store.StoreError → ε) :
    ∃ next, Observed.perform (Action.ask (.get key) wrap) store =
      .ok (.ok ((store.live key).map (·.value)), next) ∧ Leaves store next store.live := by
  obtain ⟨next, hspares, hread⟩ := perform_read store key wrap
  rw [h] at hread
  exact ⟨next, hread, .of_spares h hspares⟩

/-- A removal tells whether there was a live entry. -/
theorem perform_delete (h : store.failures = []) (key : String) (wrap : Store.StoreError → ε) :
    ∃ next, Observed.perform (Action.ask (.delete key) wrap) store =
      .ok (.ok (store.live key).isSome, next) ∧
        Leaves store next fun probe => if key = probe then none else store.live probe := by
  rw [Observed.perform_ask _ h]
  refine ⟨store.served (.delete key) (store.memory.delete store.now key).2, ?_,
    .served h _ (store.memory.live_delete store.now key)⟩
  rw [Observed.live, ← Store.Memory.delete_eq]
  rfl

end Calls

namespace Repository

variable {repository : Repository} {store : Observed}

/-! ## Finding a session -/

/-- The time of a session begins anew, if the instant of its expiry can be represented. -/
theorem perform_refresh (h : store.failures = []) {callerType : CallerType} {sessionKey : String}
    {entry : Entry} (hlive : store.live sessionKey = some entry)
    (hlimit : ∀ ttl ∈ callerType.renewal?, store.now + ttl < Instant.limit) :
    ∃ next, Observed.perform (refresh callerType sessionKey) store = .ok (.ok (), next) ∧
      Leaves store next ((Deed.authenticated sessionKey callerType).liveAfter store.now
        store.live) := by
  unfold refresh
  unfold CallerType.renewal? at hlimit
  cases hslides : callerType.sliding with
  | false =>
    refine ⟨store, rfl, rfl, h, fun key => ?_⟩
    simp [Deed.liveAfter, CallerType.renewal?, hslides]
  | true =>
    rw [hslides] at hlimit
    cases httl : callerType.ttl? with
    | none =>
      refine ⟨store, rfl, rfl, h, fun key => ?_⟩
      simp [Deed.liveAfter, CallerType.renewal?, hslides, httl]
    | some ttl =>
      rw [if_pos rfl, httl] at hlimit
      have hexpire := (Store.Memory.expire_of_live hlive).2 ⟨hlimit ttl rfl, rfl, rfl⟩
      simp only [if_true, Observed.perform_bind, Observed.perform_attempt _ h, Store.Memory.serve,
        hexpire]
      refine ⟨_, rfl, .served h _ fun key => ?_⟩
      rw [Store.Memory.live_insert]
      simp only [Deed.liveAfter, CallerType.renewal?, hslides, if_true, httl]
      by_cases hk : sessionKey = key
      · subst hk
        simp [hlive]
      · simp only [if_neg hk]
        rfl

/-- Beginning the time of a session anew stops the program if the clock cannot represent its end. -/
theorem perform_refresh_of_overflow (h : store.failures = []) {callerType : CallerType}
    {sessionKey : String} {entry : Entry} (hlive : store.live sessionKey = some entry)
    {ttl : Duration} (hrenewal : callerType.renewal? = some ttl)
    (hlimit : Instant.limit ≤ store.now + ttl) :
    Observed.perform (refresh callerType sessionKey) store = .error .clockOverflow := by
  obtain ⟨hslides, httl⟩ := Option.ite_none_right_eq_some.1 hrenewal
  have hexpire := Store.Memory.expire_of_overflow hlive hlimit
  simp only [refresh, hslides, if_true, httl, Observed.perform_bind,
    Observed.perform_attempt _ h, Store.Memory.serve, hexpire]

/-- A token leads to a context: its claims name a key under which there is a live record, and the
record holds the context for it. -/
def Finds (repository : Repository) (store : Observed) (token : String) (callerType : CallerType)
    (sessionKey : String) (context : Context) : Prop :=
  ∃ claims entry, repository.address token = .ok (claims, callerType, sessionKey) ∧
    store.live sessionKey = some entry ∧ verify token claims entry.value = .ok context

/-- The three ways in which the use of a token ends. -/
inductive Ends (repository : Repository) (store : Observed) (token : String) :
    Except Crash (Except ResolveError Located × Observed) → Prop
  | found {callerType : CallerType} {sessionKey : String} {context : Context} {next : Observed}
      (finds : repository.Finds store token callerType sessionKey context)
      (hlimit : ∀ ttl ∈ callerType.renewal?, store.now + ttl < Instant.limit)
      (leaves : Leaves store next ((Deed.authenticated sessionKey callerType).liveAfter store.now
        store.live)) : Ends repository store token (.ok (.ok ⟨context, sessionKey⟩, next))
  | refused {e : ResolveError} {next : Observed}
      (hnot : ∀ callerType sessionKey context,
        ¬repository.Finds store token callerType sessionKey context)
      (leaves : Leaves store next store.live) : Ends repository store token (.ok (.error e, next))
  | crashed {callerType : CallerType} {sessionKey : String} {context : Context} {ttl : Duration}
      (finds : repository.Finds store token callerType sessionKey context)
      (hrenewal : callerType.renewal? = some ttl) (hlimit : Instant.limit ≤ store.now + ttl) :
      Ends repository store token (.error .clockOverflow)

/-- A session that has been found is used: its time begins anew. -/
theorem ends_of_finds {token : String} {callerType : CallerType} {sessionKey : String}
    {context : Context} (hf : repository.Finds store token callerType sessionKey context)
    {next : Observed} (hread : Leaves store next store.live) :
    Ends repository store token (Observed.perform (do
      refresh callerType sessionKey
      pure ⟨context, sessionKey⟩) next) := by
  obtain ⟨claims, entry, -, hlive, -⟩ := id hf
  have hlive' := (hread.live sessionKey).trans hlive
  rw [Observed.perform_bind]
  by_cases hlimit : ∀ ttl ∈ callerType.renewal?, store.now + ttl < Instant.limit
  · obtain ⟨last, hrefresh, hleaves⟩ :=
      perform_refresh hread.failures hlive' (by rw [hread.now]; exact hlimit)
    rw [hrefresh]
    refine .found hf hlimit (hread.trans ⟨hleaves.now, hleaves.failures, fun key => ?_⟩)
    rw [hleaves.live, hread.now]
    congr 1
    exact funext hread.live
  · simp only [Option.mem_def, Classical.not_forall, Nat.not_lt] at hlimit
    obtain ⟨ttl, hrenewal, hlimit⟩ := hlimit
    have hover : Instant.limit ≤ next.now + ttl := by rw [hread.now]; exact hlimit
    rw [perform_refresh_of_overflow hread.failures hlive' hrenewal hover]
    exact .crashed hf hrenewal hlimit

/-- The use of a token finds a context, or is refused without a trace, or stops the program. -/
theorem perform_locate (repository : Repository) (h : store.failures = []) (token : String) :
    Ends repository store token (Observed.perform (repository.locate token) store) := by
  rw [locate, Observed.perform_bind, Observed.perform_of]
  cases haddress : repository.address token with
  | error e =>
    refine .refused ?_ (.refl h)
    rintro callerType sessionKey context ⟨claims, entry, haddress', -⟩
    rw [haddress] at haddress'
    cases haddress'
  | ok found =>
    obtain ⟨claims, callerType, sessionKey⟩ := found
    obtain ⟨next, hget, hread⟩ := perform_get h sessionKey ResolveError.store
    -- The key and the entry under it are those that the token finds, if it finds any.
    have hfinds {callerType' : CallerType} {key : String} {context : Context}
        (hf : repository.Finds store token callerType' key context) :
        ∃ entry, store.live sessionKey = some entry ∧
          verify token claims entry.value = .ok context := by
      obtain ⟨claims', entry, haddress', hlive, hverify⟩ := hf
      rw [haddress] at haddress'
      cases haddress'
      exact ⟨entry, hlive, hverify⟩
    dsimp only
    rw [Observed.perform_bind, hget]
    cases hlive : store.live sessionKey with
    | none =>
      refine .refused (fun _ _ context hf => ?_) hread
      obtain ⟨entry, hlive', -⟩ := hfinds hf
      cases hlive.symm.trans hlive'
    | some entry =>
      rw [Option.map_some]
      dsimp only
      rw [Observed.perform_bind, Observed.perform_of]
      cases hverify : verify token claims entry.value with
      | error e =>
        refine .refused (fun _ _ context hf => ?_) hread
        obtain ⟨entry', hlive', hverify'⟩ := hfinds hf
        cases hlive.symm.trans hlive'
        rw [hverify] at hverify'
        cases hverify'
      | ok context =>
        exact ends_of_finds ⟨claims, entry, haddress, hlive, hverify⟩ hread

/-! ## Using a session -/

/-- Authentication is the use of a token, of which the context is kept. -/
theorem perform_authenticate (token : String) :
    Observed.perform (repository.authenticate token) store =
      match Observed.perform (repository.locate token) store with
      | .ok (.ok located, next) => .ok (.ok located.context, next)
      | .ok (.error e, next) => .ok (.error e, next)
      | .error crash => .error crash := by
  rw [authenticate, Observed.perform_bind]
  rcases Observed.perform (repository.locate token) store with _ | ⟨_ | _, _⟩ <;> rfl

/-- An authentication leaves what its deeds say. -/
theorem leaves_authenticate (h : store.failures = []) {token : String}
    {answer : Except ResolveError Context} {next : Observed}
    (hperform : Observed.perform (repository.authenticate token) store = .ok (answer, next)) :
    Leaves store next (liveAfter store.now store.live (repository.used store token)) := by
  have hends := repository.perform_locate h token
  simp only [used, perform_authenticate] at hperform ⊢
  generalize Observed.perform (repository.locate token) store = outcome at hends hperform ⊢
  cases hends with
  | found finds hlimit leaves =>
    obtain ⟨claims, entry, haddress, -, -⟩ := finds
    cases hperform
    rw [haddress]
    exact leaves
  | refused hnot leaves =>
    cases hperform
    exact leaves
  | crashed => cases hperform

/-- What becomes of a resolve error is logged, and nothing else happens. -/
theorem perform_recover (store : Observed) (token : String) (e : ResolveError) :
    ∃ answer severity text,
    Observed.perform (recover token e) store = .ok (answer, store.logged severity text) := by
  cases e <;> exact ⟨_, _, _, rfl⟩

/-- Resolving a token leaves what an authentication does. -/
theorem leaves_resolve (h : store.failures = []) {token : String}
    {answer : Except IdentityError (Option Context)} {next : Observed}
    (hperform : Observed.perform (repository.resolve token) store = .ok (answer, next)) :
    Leaves store next (liveAfter store.now store.live (repository.used store token)) := by
  obtain ⟨outcome, mid, hauth, hrest⟩ := Observed.perform_lift_bind_eq_ok hperform
  have hleaves := leaves_authenticate h hauth
  cases outcome with
  | ok context =>
    cases hrest
    exact hleaves
  | error e =>
    obtain ⟨answer', severity, text, hrecover⟩ := perform_recover mid token e
    dsimp only at hrest
    rw [Observed.perform_bind, hrecover] at hrest
    cases answer' <;> cases hrest <;> exact hleaves.logged severity text

/-- Resolving a request leaves what an authentication of its token does. -/
theorem leaves_resolveRequest (h : store.failures = []) {credentials : Credentials}
    {answer : Except IdentityError (Option Context)} {next : Observed}
    (hperform : Observed.perform (repository.resolveRequest credentials) store =
      .ok (answer, next)) :
    Leaves store next (liveAfter store.now store.live
      (credentials.token.elim [] (repository.used store))) := by
  unfold resolveRequest at hperform
  cases htoken : credentials.token with
  | none =>
    rw [htoken] at hperform
    cases hperform
    exact .refl h
  | some token =>
    rw [htoken] at hperform
    rw [Option.elim_some]
    obtain ⟨e, hresolve, -⟩ | ⟨found, mid, hresolve, hrest⟩ :=
      Observed.perform_bind_eq_ok hperform
    · have hleaves := leaves_resolve h hresolve
      exact hleaves
    · have hleaves := leaves_resolve h hresolve
      cases found with
      | none =>
        cases hrest
        exact hleaves
      | some context =>
        dsimp only at hrest
        split at hrest
        · split at hrest
          · cases hrest
            exact hleaves
          · cases hrest
            exact hleaves.logged _ _
        · cases hrest
          exact hleaves

/-- A logout leaves what its deeds say. -/
theorem leaves_logout (h : store.failures = []) {token : String}
    {answer : Except IdentityError Bool} {next : Observed}
    (hperform : Observed.perform (repository.logout token) store = .ok (answer, next)) :
    Leaves store next (liveAfter store.now store.live (repository.loggedOut token answer)) := by
  obtain ⟨outcome, mid, hlocate, hrest⟩ := Observed.perform_lift_bind_eq_ok hperform
  have hends := repository.perform_locate h token
  rw [hlocate] at hends
  cases hends with
  | @found callerType sessionKey context _ finds hlimit leaves =>
    obtain ⟨claims, entry, haddress, -, -⟩ := finds
    obtain ⟨last, hdelete, hleaves⟩ :=
      perform_delete leaves.failures sessionKey IdentityError.ofStore
    dsimp only at hrest
    rw [Observed.perform_bind, hdelete] at hrest
    cases hrest
    have hdeeds : repository.loggedOut token (.ok true) = [.removed sessionKey] := by
      simp only [loggedOut, haddress]
    rw [hdeeds]
    refine .logged (leaves.trans ⟨hleaves.now, hleaves.failures, fun key => ?_⟩) _ _
    rw [hleaves.live]
    simp only [liveAfter, List.foldr_cons, List.foldr_nil, Deed.liveAfter]
    by_cases hk : sessionKey = key
    · rw [if_pos hk, if_pos hk]
    · rw [if_neg hk, if_neg hk, leaves.live]
      exact Deed.liveAfter_authenticated_of_ne _ hk
  | @refused e _ hnot leaves =>
    obtain ⟨answer', severity, text, hrecover⟩ := perform_recover mid token e
    dsimp only at hrest
    rw [Observed.perform_bind, hrecover] at hrest
    cases answer' <;> cases hrest <;> exact leaves.logged severity text

/-- An invalidation leaves what its deeds say. -/
theorem leaves_invalidate (h : store.failures = []) {name bindingKey : String}
    {answer : Except IdentityError Bool} {next : Observed}
    (hperform : Observed.perform (repository.invalidate name bindingKey) store =
      .ok (answer, next)) :
    Leaves store next
      (liveAfter store.now store.live (repository.invalidated name bindingKey answer)) := by
  obtain ⟨e, -, rfl, rfl⟩ | ⟨callerType, hsettings, hrest⟩ :=
    Observed.perform_of_bind_eq_ok hperform
  · exact .refl h
  have htype := settingsFor_eq_ok.1 hsettings
  have hdeeds : repository.invalidated name bindingKey (.ok true) =
      [.removed (callerType.sessionKey bindingKey)] := by
    simp only [invalidated, htype]
  generalize callerType.sessionKey bindingKey = sessionKey at hrest hdeeds
  obtain ⟨mid, hdelete, hleaves⟩ := perform_delete h sessionKey IdentityError.ofStore
  rw [Observed.perform_bind, hdelete] at hrest
  cases hlive : store.live sessionKey with
  | some entry =>
    rw [hlive, Option.isSome_some] at hrest
    cases hrest
    rw [hdeeds]
    exact hleaves.logged _ _
  | none =>
    rw [hlive, Option.isSome_none] at hrest
    cases hrest
    refine ⟨hleaves.now, hleaves.failures, fun key => (hleaves.live key).trans ?_⟩
    by_cases hk : sessionKey = key
    · rw [if_pos hk, ← hk]
      exact hlive.symm
    · rw [if_neg hk]
      rfl

/-! ## Writing a session -/

/-- A context is stored under the caller type that it had. -/
theorem callerType_of_bind {context bound : Context} {callerType : CallerType}
    {bindingKey : String} (h : bind context callerType bindingKey = .ok bound) :
    bound.callerType = context.callerType := by
  unfold bind at h
  split at h
  · split at h <;> cases h
    rfl
  · split at h
    · cases h
      rfl
    · split at h <;> cases h
      rfl

/-- Issuing a token does not change the caller type. -/
theorem callerType_withCurrentToken (repository : Repository) (context : Context)
    (moment : Moment) :
    (repository.withCurrentToken context moment).callerType = context.callerType := by
  unfold withCurrentToken
  split <;> rfl

/-- A save leaves what its deeds say. -/
theorem leaves_save (h : store.failures = []) {context : Context} {bindingKey : String}
    {moment : Moment} {answer : Except IdentityError Context} {next : Observed}
    (hperform : Observed.perform (repository.save context bindingKey moment) store =
      .ok (answer, next)) :
    Leaves store next (liveAfter store.now store.live
      (repository.written bindingKey moment answer)) := by
  obtain ⟨e, rfl, hspares⟩ | ⟨callerType, bound, htype, hbind, rfl, hputs⟩ := save_cases hperform
  · exact .of_spares h hspares
  have hsame : (repository.withCurrentToken bound moment).callerType = context.callerType :=
    (callerType_withCurrentToken repository bound moment).trans (callerType_of_bind hbind)
  rw [← hsame] at htype
  generalize repository.withCurrentToken bound moment = stored at hputs htype
  have hdeeds : repository.written bindingKey moment (.ok stored) =
      [.wrote (callerType.sessionKey bindingKey)
        (.begin stored moment.unixMs callerType.ttl?) callerType.ttl?] := by
    simp only [written, htype]
  refine ⟨hputs.now, hputs.failures.trans h, fun key => ?_⟩
  rw [hputs.live, hdeeds, liveAfter, List.foldr_cons, List.foldr_nil, Deed.liveAfter,
    Option.filter_some, if_pos hputs.isLive]

/-- A login leaves what its deeds say. -/
theorem leaves_login (h : store.failures = []) {context : Context} {bindingKey : String}
    {moment : Moment} {answer : Except IdentityError Context} {next : Observed}
    (hperform : Observed.perform (repository.login context bindingKey moment) store =
      .ok (answer, next)) :
    Leaves store next (liveAfter store.now store.live
      (repository.written bindingKey moment answer)) := by
  obtain ⟨e, hsave, rfl⟩ | ⟨stored, mid, hsave, hrest⟩ := Observed.perform_bind_eq_ok hperform
  · exact leaves_save h hsave
  · cases hrest
    exact (leaves_save h hsave).logged _ _

/-- A device's save leaves what its deeds say. -/
theorem leaves_saveForDevice (h : store.failures = []) {context : Context}
    {binding : DeviceBinding} {moment : Moment} {answer : Except IdentityError Context}
    {next : Observed}
    (hperform : Observed.perform (repository.saveForDevice context binding moment) store =
      .ok (answer, next)) :
    Leaves store next (liveAfter store.now store.live
      (repository.written binding.deviceId moment answer)) := by
  obtain ⟨e, rfl, hspares⟩ | ⟨callerType, mid, -, -, -, hspares, hsave⟩ :=
    saveForDevice_cases hperform
  · exact .of_spares h hspares
  · have hleaves := Leaves.of_spares h hspares
    exact hleaves.deeds (leaves_save hleaves.failures hsave)

end Repository
end Turnstile.Session
