import Turnstile.Proofs.Session.Contract
import Turnstile.Proofs.Session.Traces

/-!
# Requests without an identity

A request whose token leads to no session leaves all sessions as they are, and so does one that
the store fails. One that names another device than the one that its session is bound to has no
identity either, but its token has been used by then: a sliding session has been prolonged.
-/

namespace Turnstile.Session

open Store (Observed Entry Call)

/-- Whether a request names another device than the one that a context is bound to. -/
def Credentials.Strays (credentials : Credentials) (context : Context) : Prop :=
  ∃ presented bound, credentials.deviceId = some presented ∧ context.deviceId? = some bound ∧
    presented ≠ bound

/-! ## What the use of a session leaves behind -/

/-- How long the use of a session prolongs it: not at all if the session does not slide, or if the
store fails to be told. -/
def prolongation? (store : Observed) (callerType : CallerType) : Option Duration :=
  if store.failures.lookup "expire" = none then callerType.renewal? else none

/-- The entry of a session that has been used. -/
def prolonged (now : Instant) (span? : Option Duration) (entry : Entry) : Entry :=
  match span? with
  | some span => { entry with expiresAt := some (now + span) }
  | none => entry

/-- From one store to the other a session has been prolonged, and nothing else has changed. -/
structure Prolongs (sessionKey : String) (span? : Option Duration) (store next : Observed) :
    Prop where
  now : next.now = store.now
  live : ∀ key, next.live key =
    if sessionKey = key then (store.live key).map (prolonged store.now span?) else store.live key

/-- To prolong a session by nothing changes nothing. -/
theorem Spares.prolongs {store next : Observed} (h : Spares store next) (sessionKey : String) :
    Prolongs sessionKey none store next := by
  refine ⟨h.now, fun key => ?_⟩
  have hsame : (store.live key).map (prolonged store.now none) = store.live key :=
    Option.map_id_apply
  rw [h.live, hsame, ite_self]

/-- A session is prolonged after nothing has changed. -/
theorem Spares.trans_prolongs {sessionKey : String} {span? : Option Duration}
    {store mid next : Observed} (h : Spares store mid) (h' : Prolongs sessionKey span? mid next) :
    Prolongs sessionKey span? store next := by
  refine ⟨h'.now.trans h.now, fun key => ?_⟩
  rw [h'.live, h.live, h.now]

/-- Lines that are logged afterwards change nothing. -/
theorem Prolongs.logged {sessionKey : String} {span? : Option Duration} {store next : Observed}
    (h : Prolongs sessionKey span? store next) (severity : Severity) (text : String) :
    Prolongs sessionKey span? store (next.logged severity text) := ⟨h.now, h.live⟩

namespace Repository

variable {repository : Repository} {store next : Observed} {token : String}

/-- A request strays to a session that its use prolongs: its token leads there, but it names
another device. -/
def StraysTo (repository : Repository) (store : Observed) (credentials : Credentials)
    (sessionKey : String) (span : Duration) : Prop :=
  ∃ token callerType context, credentials.token = some token ∧
    repository.Finds store token callerType sessionKey context ∧ credentials.Strays context ∧
    prolongation? store callerType = some span

/-- To begin the time of a live session anew is to prolong it. -/
theorem prolongs_refresh {callerType : CallerType} {sessionKey : String} {entry : Entry}
    (hlive : store.live sessionKey = some entry) {answer : Except ResolveError Unit}
    (hperform : Observed.perform (refresh callerType sessionKey) store = .ok (answer, next)) :
    answer = .ok () ∧ Prolongs sessionKey (prolongation? store callerType) store next := by
  have hnever (hrenewal : callerType.renewal? = none) :
      Prolongs sessionKey (prolongation? store callerType) store store := by
    rw [prolongation?, hrenewal, ite_self]
    exact (Spares.refl store).prolongs sessionKey
  unfold refresh at hperform
  cases hslides : callerType.sliding with
  | false =>
    rw [hslides] at hperform
    cases hperform
    exact ⟨rfl, hnever (by simp [CallerType.renewal?, hslides])⟩
  | true =>
    rw [hslides, if_pos rfl] at hperform
    cases httl : callerType.ttl? with
    | none =>
      rw [httl] at hperform
      cases hperform
      exact ⟨rfl, hnever (by simp [CallerType.renewal?, httl])⟩
    | some ttl =>
      have hrenewal : callerType.renewal? = some ttl := by
        simp [CallerType.renewal?, hslides, httl]
      rw [httl] at hperform
      obtain ⟨e, hattempt, -⟩ | ⟨outcome, mid, hattempt, hrest⟩ :=
        Observed.perform_bind_eq_ok hperform
      · obtain ⟨outcome, -, herror⟩ := Observed.perform_attempt_eq_ok hattempt
        cases herror
      obtain ⟨_, hserve, heq⟩ := Observed.perform_attempt_eq_ok hattempt
      cases heq
      obtain ⟨fault, hfails, rfl, rfl⟩ | ⟨hserves, found, memory, hexpire, rfl, rfl⟩ :=
        Observed.serve_eq_ok hserve
      · cases hrest
        have hspan : prolongation? store callerType = none := by
          refine if_neg fun hnone => ?_
          cases hnone.symm.trans hfails
        have hspares : Spares store
            ((store.served (.expire sessionKey ttl) store.memory).logged .warn
              s!"Failed to refresh session {sessionKey}: {fault.message}") :=
          ⟨rfl, rfl, fun _ => rfl⟩
        rw [hspan]
        exact ⟨rfl, hspares.prolongs sessionKey⟩
      · cases hrest
        have hspan : prolongation? store callerType = some ttl := (if_pos hserves).trans hrenewal
        obtain ⟨-, -, rfl⟩ := (Store.Memory.expire_of_live hlive).1 hexpire
        have hlasts : Entry.isLive ⟨entry.value, some (store.now + ttl)⟩ store.now :=
          decide_eq_true (Nat.lt_add_of_pos_right (CallerType.renewal?_pos hrenewal))
        rw [hspan]
        refine ⟨rfl, rfl, fun key => ?_⟩
        refine (store.memory.live_insert store.now sessionKey _ key).trans ?_
        rw [Option.filter_some, if_pos hlasts]
        split
        · rename_i hk
          rw [← hk, hlive]
          rfl
        · rfl

/-- A token that finds a session prolongs it, and one that does not, or that the store fails, has
left no trace. -/
theorem locate_cases {answer : Except ResolveError Located}
    (hperform : Observed.perform (repository.locate token) store = .ok (answer, next)) :
    (∃ callerType sessionKey context, answer = .ok ⟨context, sessionKey⟩ ∧
      repository.Finds store token callerType sessionKey context ∧
      Prolongs sessionKey (prolongation? store callerType) store next) ∨
    ∃ e, answer = .error e ∧ Spares store next ∧
      ((∃ fault, e = .store fault) ∨
        ∀ callerType sessionKey context,
          ¬repository.Finds store token callerType sessionKey context) := by
  unfold locate at hperform
  obtain ⟨e, haddress, rfl, rfl⟩ | ⟨⟨claims, callerType, sessionKey⟩, haddress, hrest⟩ :=
    Observed.perform_of_bind_eq_ok hperform
  · refine .inr ⟨e, rfl, .refl _, .inr ?_⟩
    rintro callerType sessionKey context ⟨claims, entry, haddress', -⟩
    cases haddress.symm.trans haddress'
  -- The key and the entry under it are those that the token finds, if it finds any.
  have hfinds {callerType' : CallerType} {key : String} {context : Context}
      (finds : repository.Finds store token callerType' key context) :
      ∃ entry, store.live sessionKey = some entry ∧
        verify token claims entry.value = .ok context := by
    obtain ⟨claims', entry, haddress', hlive, hverify⟩ := finds
    cases haddress.symm.trans haddress'
    exact ⟨entry, hlive, hverify⟩
  obtain ⟨e, hget, rfl⟩ | ⟨found, mid, hget, hrest⟩ := Observed.perform_bind_eq_ok hrest
  · obtain ⟨hspares, ⟨fault, hfault⟩ | hanswer⟩ := spares_get hget
    · cases hfault
      exact .inr ⟨_, rfl, hspares, .inl ⟨fault, rfl⟩⟩
    · cases hanswer
  obtain ⟨hspares, ⟨fault, hfault⟩ | hanswer⟩ := spares_get hget
  · cases hfault
  cases hanswer
  cases hlive : store.live sessionKey with
  | none =>
    rw [hlive] at hrest
    cases hrest
    refine .inr ⟨_, rfl, hspares, .inr fun _ _ context finds => ?_⟩
    obtain ⟨entry, hlive', -⟩ := hfinds finds
    cases hlive.symm.trans hlive'
  | some entry =>
    rw [hlive] at hrest
    obtain ⟨e, hverify, rfl, rfl⟩ | ⟨context, hverify, hrest⟩ :=
      Observed.perform_of_bind_eq_ok hrest
    · refine .inr ⟨e, rfl, hspares, .inr fun _ _ context finds => ?_⟩
      obtain ⟨entry', hlive', hverify'⟩ := hfinds finds
      cases hlive.symm.trans hlive'
      cases hverify.symm.trans hverify'
    · have hmid : mid.live sessionKey = some entry := (hspares.live sessionKey).trans hlive
      have hsame : prolongation? mid callerType = prolongation? store callerType := by
        rw [prolongation?, hspares.failures, prolongation?]
      obtain ⟨e, hrefresh, -⟩ | ⟨_, last, hrefresh, hrest⟩ := Observed.perform_bind_eq_ok hrest
      · cases (prolongs_refresh hmid hrefresh).1
      cases hrest
      have hprolongs := (prolongs_refresh hmid hrefresh).2
      rw [hsame] at hprolongs
      exact .inl ⟨callerType, sessionKey, context, rfl, ⟨claims, entry, haddress, hlive, hverify⟩,
        hspares.trans_prolongs hprolongs⟩

/-- A token that resolves to a context has prolonged its session, and one that resolves to none has
left no trace. -/
theorem resolve_cases {found : Option Context}
    (hperform : Observed.perform (repository.resolve token) store = .ok (.ok found, next)) :
    (∃ callerType sessionKey context, found = some context ∧
      repository.Finds store token callerType sessionKey context ∧
      Prolongs sessionKey (prolongation? store callerType) store next) ∨
    (found = none ∧ Spares store next ∧
      ∀ callerType sessionKey context,
        ¬repository.Finds store token callerType sessionKey context) := by
  obtain ⟨outcome, mid, hauth, hrest⟩ := Observed.perform_lift_bind_eq_ok hperform
  rw [perform_authenticate] at hauth
  cases hlocate : Observed.perform (repository.locate token) store with
  | error crash =>
    rw [hlocate] at hauth
    cases hauth
  | ok located =>
    obtain ⟨answer, last⟩ := located
    rw [hlocate] at hauth
    obtain ⟨callerType, sessionKey, context, rfl, finds, hprolongs⟩ |
      ⟨e, rfl, hspares, hreason⟩ := locate_cases hlocate
    · cases hauth
      cases hrest
      exact .inl ⟨callerType, sessionKey, context, rfl, finds, hprolongs⟩
    · cases hauth
      have hlogged (severity : Severity) (text : String) :
          Spares store (mid.logged severity text) :=
        hspares.trans ⟨rfl, rfl, fun _ => rfl⟩
      cases e with
      | store fault => cases hrest
      | _ =>
        cases hrest
        obtain ⟨fault, hfault⟩ | hnot := hreason
        · cases hfault
        · exact .inr ⟨rfl, hlogged _ _, hnot⟩

/-- A request that is answered without a context leaves all sessions as they are, value and expiry,
except for one to which it strays: that one is prolonged. -/
theorem resolveRequest_none {credentials : Credentials}
    (hperform : Observed.perform (repository.resolveRequest credentials) store =
      .ok (.ok none, next)) :
    next.now = store.now ∧ ∀ key,
      (∀ span, repository.StraysTo store credentials key span →
        next.live key = (store.live key).map ({ · with expiresAt := some (store.now + span) })) ∧
      ((∀ span, ¬repository.StraysTo store credentials key span) →
        next.live key = store.live key) := by
  unfold resolveRequest at hperform
  cases htoken : credentials.token with
  | none =>
    rw [htoken] at hperform
    cases hperform
    refine ⟨rfl, fun key => ⟨?_, fun _ => rfl⟩⟩
    rintro span ⟨token, -, -, htoken', -⟩
    cases htoken.symm.trans htoken'
  | some token =>
    rw [htoken] at hperform
    obtain ⟨e, -, herror⟩ | ⟨found, mid, hresolve, hrest⟩ := Observed.perform_bind_eq_ok hperform
    · cases herror
    obtain ⟨callerType, sessionKey, context, rfl, finds, hprolongs⟩ | ⟨rfl, hspares, hnot⟩ :=
      resolve_cases hresolve
    · -- The context is there, so the answer is none because of the device.
      have hstrays : credentials.Strays context ∧
          Prolongs sessionKey (prolongation? store callerType) store next := by
        dsimp only at hrest
        split at hrest
        · rename_i presented bound hpresented hbound
          split at hrest
          · cases hrest
          · rename_i hne
            cases hrest
            exact ⟨⟨presented, bound, hpresented, hbound, hne⟩, hprolongs.logged _ _⟩
        · cases hrest
      obtain ⟨hstrays, hprolongs⟩ := hstrays
      have haddress : ∃ claims,
          repository.address token = .ok (claims, callerType, sessionKey) := by
        obtain ⟨claims, entry, haddress, -⟩ := id finds
        exact ⟨claims, haddress⟩
      obtain ⟨claims, haddress⟩ := haddress
      refine ⟨hprolongs.now, fun key => ⟨?_, fun hnever => ?_⟩⟩
      · rintro span ⟨token', callerType', context', htoken', finds', -, hspan⟩
        cases htoken.symm.trans htoken'
        obtain ⟨rfl, rfl⟩ := finds'.eq_address haddress
        rw [hprolongs.live, if_pos rfl, hspan]
        rfl
      · rw [hprolongs.live]
        cases hspan : prolongation? store callerType with
        | none =>
          have hsame : (store.live key).map (prolonged store.now none) = store.live key :=
            Option.map_id_apply
          rw [hsame, ite_self]
        | some span =>
          rw [if_neg]
          rintro rfl
          exact hnever span ⟨token, callerType, context, htoken, finds, hstrays, hspan⟩
    · cases hrest
      refine ⟨hspares.now, fun key => ⟨?_, fun _ => hspares.live key⟩⟩
      rintro span ⟨token', callerType, context, htoken', finds, -⟩
      cases htoken.symm.trans htoken'
      exact absurd finds (hnot _ _ _)

/-- A request that strays is answered without a context and prolongs the session, as long as the
new expiry can be represented. -/
theorem resolveRequest_of_straysTo (h : store.failures = []) {credentials : Credentials}
    {sessionKey : String} {span : Duration}
    (strays : repository.StraysTo store credentials sessionKey span)
    (hlimit : store.now + span < Instant.limit) :
    ∃ next, Observed.perform (repository.resolveRequest credentials) store =
      .ok (.ok none, next) ∧ Prolongs sessionKey (some span) store next := by
  obtain ⟨token, callerType, context, htoken, finds, hstrays, hspan⟩ := strays
  obtain ⟨presented, bound, hpresented, hbound, hne⟩ := hstrays
  have hrenewal : callerType.renewal? = some span := by
    rw [prolongation?, h] at hspan
    exact hspan
  have hresolve : ∃ mid, Observed.perform (repository.resolve token) store =
      .ok (.ok (some context), mid) := by
    have hends := repository.perform_locate h token
    rw [resolve, Observed.perform_bind, Observed.perform_lift, perform_authenticate]
    generalize Observed.perform (repository.locate token) store = outcome at hends
    obtain ⟨claims, entry, haddress, -⟩ := id finds
    cases hends with
    | found finds' =>
      obtain ⟨rfl, rfl⟩ := finds'.eq_address haddress
      obtain rfl := finds'.unique finds
      exact ⟨_, rfl⟩
    | refused hnot => exact absurd finds (hnot _ _ _)
    | crashed finds' hrenewal' hover =>
      obtain ⟨rfl, rfl⟩ := finds'.eq_address haddress
      cases hrenewal.symm.trans hrenewal'
      exact absurd hlimit (Nat.not_lt.2 hover)
  obtain ⟨mid, hresolve⟩ := hresolve
  have hprolongs : Prolongs sessionKey (some span) store mid := by
    obtain ⟨callerType', sessionKey', context', -, finds', hprolongs⟩ | ⟨hnone, -⟩ :=
      resolve_cases hresolve
    · obtain ⟨claims, entry, haddress, -⟩ := id finds
      obtain ⟨rfl, rfl⟩ := finds'.eq_address haddress
      rwa [hspan] at hprolongs
    · cases hnone
  unfold resolveRequest
  rw [htoken]
  dsimp only
  rw [Observed.perform_bind, hresolve]
  dsimp only
  rw [hpresented, hbound]
  dsimp only
  rw [if_neg hne]
  exact ⟨_, rfl, hprolongs.logged _ _⟩

end Repository

/-! ## A stray request -/

/-- Sessions of devices that last a minute from each use on. -/
def minuteOnDevice : CallerType :=
  { CallerType.ofName "d" .device with ttlSecs := some 60, sliding := true }

/-- The repository of sessions on devices that last a minute from each use on. -/
def minutesOnly : Repository :=
  .ofCallerTypes .ofLetter [minuteOnDevice]

/-- What the token of the session on the device `x` says. -/
def minuteClaims : Claims := ⟨"u", "", "d", some "x", 0, ∅⟩

/-- The token of a session on the device `x`. -/
def minuteToken : String :=
  minutesOnly.cipher.issueValue (Vector.replicate 12 0) minuteClaims.toValue

/-- The caller in the session on the device `x`. -/
def minuteContext : Context := ((Context.ofNames "u" "" "d").withDevice "x").withToken minuteToken

/-- The record of the session on the device `x`, saved at the beginning of time. -/
def minuteRecord : Record := .begin minuteContext 0 minuteOnDevice.ttl?

/-- The entry of the session on the device `x`. -/
def minuteEntry : Entry := ⟨minuteRecord.toBytes, some (Duration.ofSecs 60)⟩

/-- The token of the session on the device `x` opens. -/
theorem openWith_minute :
    minutesOnly.cipher.openWith Claims.parse minuteToken = .ok minuteClaims :=
  Claims.openWith_issueValue_of_plain _ _ rfl

/-- The record of the session on the device `x` is read back. -/
theorem ofBytes_minute : Record.ofBytes minuteEntry.value = .ok minuteRecord := by
  have hentries : minuteRecord.context.metadata.entries =
      [("device_id", .string "x"), ("token", .string minuteToken)] := rfl
  have hvalue : minuteEntry.value = minuteRecord.toBytes := by rw [minuteEntry]
  rw [hvalue]
  refine Record.ofBytes_toBytes_of_texts fun e he => ?_
  rw [hentries, List.mem_cons, List.mem_singleton] at he
  obtain rfl | rfl := he
  · exact ⟨"x", rfl⟩
  · exact ⟨minuteToken, rfl⟩

/-- The session on the device `x` vouches for its token. -/
theorem vouches_minute : Vouches minuteContext minuteToken minuteClaims where
  current := rfl
  bound device hdevice := by
    cases Context.deviceId?_eq_some_iff.2 hdevice
    rfl
  enabled := rfl
  unlocked := rfl
  unexpired := rfl

/-- The session on the device `x` is found for its token. -/
theorem verify_minute :
    Repository.verify minuteToken minuteClaims minuteEntry.value = .ok minuteContext :=
  Repository.verify_eq_ok.2 ⟨⟨minuteRecord, ofBytes_minute, rfl⟩, vouches_minute⟩

/-- Forty seconds may have passed since the session on the device `x` was saved. -/
theorem course_minute : ∃ journal store, Course minutesOnly journal store ∧
    store.now = Duration.ofSecs 40 ∧ store.failures = [] ∧
    store.live "session:d:x" = some minuteEntry := by
  have hsave : ∃ next, next.now = 0 ∧ next.failures = [] ∧
      next.memory = ⟨Table.empty.insert "session:d:x" minuteEntry⟩ ∧
      Observed.perform (minutesOnly.save minuteContext "x" ⟨0, Vector.replicate 12 0⟩) .start =
        .ok (.ok minuteContext, next) := ⟨_, rfl, rfl, rfl, rfl⟩
  obtain ⟨next, hnow, hfailures, hmemory, hsave⟩ := hsave
  refine ⟨_, _, (Course.start.operation (.save hsave)).wait (Duration.ofSecs 40), ?_, hfailures, ?_⟩
  · rw [hnow, Nat.zero_add]
  · rw [Observed.live, hmemory, hnow]
    rfl

/-- The claims of the token name the key of the session. -/
theorem address_minute :
    minutesOnly.address minuteToken = .ok (minuteClaims, minuteOnDevice, "session:d:x") :=
  Repository.address_eq openWith_minute rfl rfl

/-- A request with the token, from the device `y`. -/
def strayRequest : Credentials := ⟨some minuteToken, some "y", none, false⟩

/-- Wherever the session on the device `x` is live, a request from the device `y` strays to it, and
its use prolongs the session by a minute. -/
theorem straysTo_minute {store : Observed} (h : store.failures = [])
    (hlive : store.live "session:d:x" = some minuteEntry) :
    minutesOnly.StraysTo store strayRequest "session:d:x" (Duration.ofSecs 60) := by
  have hspan : prolongation? store minuteOnDevice = some (Duration.ofSecs 60) := by
    rw [prolongation?, h]
    rfl
  exact ⟨minuteToken, minuteOnDevice, minuteContext, rfl,
    ⟨_, minuteEntry, address_minute, hlive, verify_minute⟩, ⟨"y", "x", rfl, rfl, by decide⟩, hspan⟩

/-- A request from another device has no identity, and the session that its token leads to, which
had twenty seconds left, has a minute. -/
theorem resolveRequest_none_of_stray : ∃ store next,
    store.live "session:d:x" = some minuteEntry ∧ store.now = Duration.ofSecs 40 ∧
      Observed.perform (minutesOnly.resolveRequest strayRequest) store = .ok (.ok none, next) ∧
      next.live "session:d:x" =
        some { minuteEntry with expiresAt := some (Duration.ofSecs 100) } := by
  obtain ⟨-, store, -, hnow, hfailures, hlive⟩ := course_minute
  have hstrays := straysTo_minute hfailures hlive
  obtain ⟨next, hperform, -⟩ :=
    Repository.resolveRequest_of_straysTo hfailures hstrays (by rw [hnow]; decide)
  have hprolonged := ((Repository.resolveRequest_none hperform).2 "session:d:x").1 _ hstrays
  rw [hlive, hnow] at hprolonged
  exact ⟨store, next, hlive, hnow, hperform, hprolonged⟩

/-- A request that is answered without a context does not always leave all sessions as they are. -/
theorem answered_none_but_prolonged : ∃ repository journal store credentials next key,
    Course repository journal store ∧
      Observed.perform (repository.resolveRequest credentials) store = .ok (.ok none, next) ∧
      next.live key ≠ store.live key := by
  obtain ⟨journal, store, course, hnow, hfailures, hlive⟩ := course_minute
  have hstrays := straysTo_minute hfailures hlive
  obtain ⟨next, hperform, hprolongs⟩ :=
    Repository.resolveRequest_of_straysTo hfailures hstrays (by rw [hnow]; decide)
  refine ⟨minutesOnly, journal, store, strayRequest, next, "session:d:x", course, hperform, ?_⟩
  rw [hprolongs.live, if_pos rfl, hlive, hnow]
  intro hsame
  have hexpiry : Duration.ofSecs 40 + Duration.ofSecs 60 = Duration.ofSecs 60 :=
    Option.some.inj (congrArg Entry.expiresAt (Option.some.inj hsame))
  exact absurd hexpiry (by decide)

end Turnstile.Session
