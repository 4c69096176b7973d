import Turnstile.Proofs.Session.Effects
import Turnstile.Proofs.Session.SealedClaims
import Turnstile.Proofs.Session.StoredRecords
import Turnstile.Proofs.Text.Readers
import Turnstile.Proofs.Token.Comparison

/-!
# The contract of sessions

Along every course of operations the live entries of the store are the sessions that stand
by the journal and have not lapsed. A token is therefore authenticated exactly if the session
that stands under its key names it as its token, for the device and the caller that it says.
-/

namespace Turnstile.Session

open Store (Observed Entry)

/-! ## Entries and sessions that stand -/

/-- An entry keeps the session that stands. -/
inductive Keeps : Option Entry → Option Standing → Prop
  | none : Keeps none none
  | some {entry : Entry} {record : Record} (hread : Record.ofBytes entry.value = .ok record) :
      Keeps (some entry) (some ⟨record.context, entry.expiresAt⟩)

/-- An entry lapses together with its session. -/
theorem Keeps.filter {entry : Option Entry} {standing : Option Standing} (h : Keeps entry standing)
    (now : Instant) : Keeps (entry.filter (·.isLive now)) (standing.filter (·.lasts now)) := by
  cases h with
  | none => exact .none
  | @some entry record hread =>
    have hsame : (Standing.mk record.context entry.expiresAt).lasts now = entry.isLive now := rfl
    simp only [Option.filter, hsame]
    split
    · exact .some hread
    · exact .none

/-- The live entries are the sessions that stand and have not lapsed. -/
def Agree (now : Instant) (live : String → Option Entry) (journal : Journal) : Prop :=
  ∀ key, Keeps (live key) ((journal.standing? key).filter (·.lasts now))

namespace Agree

variable {now : Instant} {live : String → Option Entry} {journal : Journal}

/-- As time passes, entries and sessions lapse together. -/
theorem later (h : Agree now live journal) {later : Instant} (hle : now ≤ later)
    {live' : String → Option Entry}
    (hlive : ∀ key, live' key = (live key).filter (·.isLive later)) :
    Agree later live' journal := by
  intro key
  have hkeeps := (h key).filter later
  have hlasts : ((journal.standing? key).filter (·.lasts now)).filter (·.lasts later) =
      (journal.standing? key).filter (·.lasts later) :=
    Store.filter_later Standing.expiresAt hle _
  rw [← hlive, hlasts] at hkeeps
  exact hkeeps

/-- What has been written is kept. -/
theorem wrote (h : Agree now live journal) {sessionKey : String} {record : Record}
    {ttl : Option Duration} (hread : Record.ofBytes record.toBytes = .ok record) :
    Agree now ((Deed.wrote sessionKey record ttl).liveAfter now live)
      ((now, .wrote sessionKey record ttl) :: journal) := by
  intro key
  simp only [Deed.liveAfter, Journal.standing?]
  generalize record.toBytes = value at hread
  split
  · exact (@Keeps.some ⟨value, ttl.map (now + ·)⟩ record hread).filter now
  · exact h key

/-- What has been removed is gone. -/
theorem removed (h : Agree now live journal) (sessionKey : String) :
    Agree now ((Deed.removed sessionKey).liveAfter now live)
      ((now, .removed sessionKey) :: journal) := by
  intro key
  simp only [Deed.liveAfter, Journal.standing?]
  split
  · exact .none
  · exact h key

/-- The time of a session that has been used begins anew. -/
theorem authenticated (h : Agree now live journal) {sessionKey : String} {entry : Entry}
    (hlive : live sessionKey = some entry) (callerType : CallerType) :
    Agree now ((Deed.authenticated sessionKey callerType).liveAfter now live)
      ((now, .authenticated sessionKey callerType) :: journal) := by
  intro key
  simp only [Deed.liveAfter, Journal.standing?]
  cases callerType.renewal? with
  | none => exact h key
  | some ttl =>
    dsimp only
    split
    · rename_i hk
      subst hk
      have hkeeps := h sessionKey
      rw [hlive] at hkeeps ⊢
      generalize hfound : (journal.standing? sessionKey).filter (·.lasts now) = found at hkeeps
      cases hkeeps with
      | some hread =>
        rw [(Option.filter_eq_some_iff.1 hfound).1]
        exact (@Keeps.some { entry with expiresAt := some (now + ttl) } _ hread).filter now
    · exact h key

end Agree

/-! ## Courses -/

namespace Repository

variable (repository : Repository) {store : Observed}

/-- A write writes one session, or nothing. -/
theorem written_cases (bindingKey : String) (moment : Moment)
    (answer : Except IdentityError Context) :
    repository.written bindingKey moment answer = [] ∨ ∃ sessionKey record ttl,
      repository.written bindingKey moment answer = [.wrote sessionKey record ttl] := by
  unfold written
  split
  · exact .inl rfl
  · split
    · exact .inl rfl
    · exact .inr ⟨_, _, _, rfl⟩

/-- An invalidation removes one session, or nothing. -/
theorem invalidated_cases (name bindingKey : String) (answer : Except IdentityError Bool) :
    repository.invalidated name bindingKey answer = [] ∨ ∃ sessionKey,
      repository.invalidated name bindingKey answer = [.removed sessionKey] := by
  unfold invalidated
  split
  · split
    · exact .inl rfl
    · exact .inr ⟨_, rfl⟩
  · exact .inl rfl

/-- A logout removes one session, or nothing. -/
theorem loggedOut_cases (token : String) (answer : Except IdentityError Bool) :
    repository.loggedOut token answer = [] ∨ ∃ sessionKey,
      repository.loggedOut token answer = [.removed sessionKey] := by
  unfold loggedOut
  split
  · split
    · exact .inl rfl
    · exact .inr ⟨_, rfl⟩
  · exact .inl rfl

/-- The session that has been used is live when its token is authenticated. -/
theorem used_cases (hfailures : store.failures = []) (token : String) :
    repository.used store token = [] ∨
      ∃ sessionKey callerType entry, store.live sessionKey = some entry ∧
        repository.used store token = [.authenticated sessionKey callerType] := by
  have hends := repository.perform_locate hfailures token
  simp only [used, perform_authenticate]
  generalize Observed.perform (repository.locate token) store = outcome at hends
  cases hends with
  | found finds hlimit leaves =>
    obtain ⟨claims, entry, haddress, hlive, -⟩ := finds
    exact .inr ⟨_, _, entry, hlive, by rw [haddress]⟩
  | refused => exact .inl rfl
  | crashed => exact .inl rfl

end Repository

namespace Happens

variable {repository : Repository} {store next : Observed} {deeds : List Deed}

/-- An operation leaves what its deeds say. -/
theorem leaves (h : Happens repository store deeds next) (hfailures : store.failures = []) :
    Leaves store next (liveAfter store.now store.live deeds) := by
  cases h with
  | save h => exact Repository.leaves_save hfailures h
  | login h => exact Repository.leaves_login hfailures h
  | saveForDevice h => exact Repository.leaves_saveForDevice hfailures h
  | invalidate h => exact Repository.leaves_invalidate hfailures h
  | logout h => exact Repository.leaves_logout hfailures h
  | authenticate h => exact Repository.leaves_authenticate hfailures h
  | resolve h => exact Repository.leaves_resolve hfailures h
  | resolveRequest h => exact Repository.leaves_resolveRequest hfailures h

/-- An operation does one deed at most, and uses no session that has lapsed. -/
theorem deeds_cases (h : Happens repository store deeds next) (hfailures : store.failures = []) :
    deeds = [] ∨ (∃ sessionKey record ttl, deeds = [.wrote sessionKey record ttl]) ∨
      (∃ sessionKey, deeds = [.removed sessionKey]) ∨
      ∃ sessionKey callerType entry, store.live sessionKey = some entry ∧
        deeds = [.authenticated sessionKey callerType] := by
  have hused (token : String) := repository.used_cases hfailures token
  cases h with
  | save => exact (repository.written_cases ..).imp_right .inl
  | login => exact (repository.written_cases ..).imp_right .inl
  | saveForDevice => exact (repository.written_cases ..).imp_right .inl
  | invalidate => exact (repository.invalidated_cases ..).imp_right (.inr ∘ .inl)
  | logout => exact (repository.loggedOut_cases ..).imp_right (.inr ∘ .inl)
  | authenticate => exact (hused _).imp_right (.inr ∘ .inr)
  | resolve => exact (hused _).imp_right (.inr ∘ .inr)
  | @resolveRequest credentials =>
    cases credentials.token with
    | none => exact .inl rfl
    | some token => exact (hused token).imp_right (.inr ∘ .inr)

end Happens

namespace Course

variable {repository : Repository} {journal : Journal} {store : Observed}

/-- Along a course no call fails, and the live entries are the sessions that stand. -/
theorem agree (course : Course repository journal store) (hread : journal.ReadsBack) :
    store.failures = [] ∧ Agree store.now store.live journal := by
  induction course with
  | start => exact ⟨rfl, fun key => .none⟩
  | @wait journal store course span ih =>
    obtain ⟨hfailures, hagree⟩ := ih hread
    exact ⟨hfailures, hagree.later (Nat.le_add_right _ _) fun key =>
      store.memory.live_later (Nat.le_add_right _ _) key⟩
  | @operation journal store next deeds course happens ih =>
    obtain ⟨hfailures, hagree⟩ := ih fun now sessionKey record ttl hmem =>
      hread now sessionKey record ttl (List.mem_append_right _ hmem)
    have hleaves := happens.leaves hfailures
    have hnext : next.live = liveAfter store.now store.live deeds := funext hleaves.live
    rw [hleaves.now, hnext]
    refine ⟨hleaves.failures, ?_⟩
    obtain rfl | ⟨sessionKey, record, ttl, rfl⟩ | ⟨sessionKey, rfl⟩ |
      ⟨sessionKey, callerType, entry, hlive, rfl⟩ := happens.deeds_cases hfailures
    · exact hagree
    · exact hagree.wrote (hread store.now sessionKey record ttl List.mem_cons_self)
    · exact hagree.removed sessionKey
    · exact hagree.authenticated hlive callerType

end Course

/-! ## What a token is good for -/

/-- A context vouches for a token with some claims: its metadata name the token, the claims name
the device that its metadata name, if they name one, and it is enabled and neither locked nor
expired. -/
structure Vouches (context : Context) (token : String) (claims : Claims) : Prop where
  current : context.metadata.get? "token" = some (.string token)
  bound : ∀ device, context.metadata.get? "device_id" = some (.string device) →
    claims.deviceId = some device
  enabled : context.enabled = true
  unlocked : context.locked = false
  unexpired : context.expired = false

/-- A token names the context that stands under a key, has not lapsed and vouches for the token. -/
def Journal.Grants (journal : Journal) (sessionKey token : String) (claims : Claims)
    (now : Instant) (context : Context) : Prop :=
  Vouches context token claims ∧
    ∃ standing, journal.standing? sessionKey = some standing ∧ standing.context = context ∧
      standing.lasts now = true

namespace Repository

variable {repository : Repository} {token : String} {claims : Claims}

/-- The current token of a context is that very text. -/
theorem isCurrentToken_eq_true {context : Context} :
    isCurrentToken context token = true ↔ context.token? = some token := by
  simp only [isCurrentToken, Option.any_eq_true, Token.sameText_eq_true]
  exact ⟨fun ⟨current, hcurrent, hsame⟩ => hsame ▸ hcurrent, fun h => ⟨token, h, rfl⟩⟩

/-- A readable record is put to three tests. -/
theorem verify_of_read {octets : Bytes} {record : Record}
    (h : Record.ofBytes octets = .ok record) :
    verify token claims octets =
      if isCurrentToken record.context token then
        if record.context.deviceId?.any fun bound => claims.deviceId != some bound then
          .error .deviceMismatch
        else if record.context.isActive then .ok record.context else .error .inactive
      else .error .tokenSuperseded := by
  unfold verify
  rw [h]
  change (if (!isCurrentToken record.context token) = true then _ else _) = _
  cases isCurrentToken record.context token
  · rfl
  · cases record.context.deviceId?.any fun bound => claims.deviceId != some bound
    · cases record.context.isActive <;> rfl
    · rfl

/-- A context that passes the tests vouches for the token. -/
theorem vouches_iff {context : Context} : Vouches context token claims ↔
    isCurrentToken context token = true ∧
      (context.deviceId?.any fun bound => claims.deviceId != some bound) = false ∧
        context.isActive = true := by
  have hbound : (∀ device, context.deviceId? = some device → claims.deviceId = some device) ↔
      (context.deviceId?.any fun bound => claims.deviceId != some bound) = false := by
    cases context.deviceId? <;> simp
  have hactive : context.isActive = true ↔
      context.enabled = true ∧ context.locked = false ∧ context.expired = false := by
    simp only [Context.isActive, Bool.and_eq_true, Bool.not_eq_true', and_assoc]
  rw [isCurrentToken_eq_true, Context.token?_eq_some_iff, ← hbound, hactive]
  simp only [Context.deviceId?_eq_some_iff]
  exact ⟨fun h => ⟨h.current, h.bound, h.enabled, h.unlocked, h.unexpired⟩,
    fun ⟨hcurrent, hbound, henabled, hunlocked, hunexpired⟩ =>
      ⟨hcurrent, hbound, henabled, hunlocked, hunexpired⟩⟩

/-- A stored context is accepted if its record can be read and it vouches for the token. -/
theorem verify_eq_ok {octets : Bytes} {context : Context} :
    verify token claims octets = .ok context ↔
      (∃ record, Record.ofBytes octets = .ok record ∧ record.context = context) ∧
        Vouches context token claims := by
  cases hrecord : Record.ofBytes octets with
  | error fault =>
    constructor
    · intro h
      rw [verify, hrecord] at h
      cases h
    · rintro ⟨⟨record, h, -⟩, -⟩
      cases h
  | ok record =>
    rw [verify_of_read hrecord]
    constructor
    · intro h
      split at h
      · split at h
        · cases h
        · split at h
          · cases h
            exact ⟨⟨record, rfl, rfl⟩, vouches_iff.2 ⟨‹_›, Bool.eq_false_iff.2 ‹_›, ‹_›⟩⟩
          · cases h
      · cases h
    · rintro ⟨⟨record, h, rfl⟩, hvouches⟩
      cases h
      obtain ⟨hcurrent, hdevice, hactive⟩ := vouches_iff.1 hvouches
      rw [hcurrent, hdevice, hactive]
      rfl

/-- What a token finds is under the key that it leads to. -/
theorem Finds.eq_address {store : Observed} {callerType callerType' : CallerType}
    {sessionKey sessionKey' : String} {context : Context}
    (h : repository.Finds store token callerType' sessionKey' context)
    (haddress : repository.address token = .ok (claims, callerType, sessionKey)) :
    callerType' = callerType ∧ sessionKey' = sessionKey := by
  obtain ⟨claims', entry, haddress', -, -⟩ := h
  cases haddress.symm.trans haddress'
  exact ⟨rfl, rfl⟩

/-- A token finds one context at most. -/
theorem Finds.unique {store : Observed} {callerType : CallerType} {sessionKey : String}
    {context context' : Context} (h : repository.Finds store token callerType sessionKey context)
    (h' : repository.Finds store token callerType sessionKey context') : context = context' := by
  obtain ⟨claims, entry, haddress, hlive, hverify⟩ := h
  obtain ⟨claims', entry', haddress', hlive', hverify'⟩ := h'
  cases haddress.symm.trans haddress'
  cases hlive.symm.trans hlive'
  cases hverify.symm.trans hverify'
  rfl

/-- The key of a token whose claims can be bound. -/
theorem address_eq {callerType : CallerType} {bindingKey : String}
    (hopen : repository.cipher.openWith Claims.parse token = .ok claims)
    (htype : repository.callerType? claims.callerType = some callerType)
    (hbinding : Repository.bindingKey callerType claims = .ok bindingKey) :
    repository.address token = .ok (claims, callerType, callerType.sessionKey bindingKey) := by
  have hclaims : (Except.ok claims : Except Token.CipherError Claims).mapError ResolveError.cipher =
      .ok claims := rfl
  rw [address, hopen, hclaims]
  simp only [Bind.bind, Except.bind, htype, hbinding]
  rfl

end Repository

namespace Course

variable {repository : Repository} {journal : Journal} {store : Observed}

/-- Along a course a token finds what the journal grants it. -/
theorem finds_iff (course : Course repository journal store) (hread : journal.ReadsBack)
    {token : String} {claims : Claims} {callerType : CallerType} {sessionKey : String}
    (haddress : repository.address token = .ok (claims, callerType, sessionKey))
    (context : Context) :
    repository.Finds store token callerType sessionKey context ↔
      journal.Grants sessionKey token claims store.now context := by
  have hkeeps := (course.agree hread).2 sessionKey
  constructor
  · rintro ⟨claims', entry, haddress', hlive, hverify⟩
    cases haddress.symm.trans haddress'
    obtain ⟨⟨record, hrecord, hcontext⟩, hvouches⟩ := Repository.verify_eq_ok.1 hverify
    rw [hlive] at hkeeps
    generalize hfound : (journal.standing? sessionKey).filter (·.lasts store.now) = found
      at hkeeps
    cases hkeeps with
    | @some _ record' hrecord' =>
      cases hrecord.symm.trans hrecord'
      obtain ⟨hstanding, hlasts⟩ := Option.filter_eq_some_iff.1 hfound
      exact ⟨hvouches, _, hstanding, hcontext, hlasts⟩
  · rintro ⟨hvouches, standing, hstanding, hcontext, hlasts⟩
    have hfound : (journal.standing? sessionKey).filter (·.lasts store.now) = some standing :=
      Option.filter_eq_some_iff.2 ⟨hstanding, hlasts⟩
    rw [hfound] at hkeeps
    generalize hlive : store.live sessionKey = live at hkeeps
    cases hkeeps with
    | @some entry record hrecord =>
      exact ⟨claims, entry, haddress, hlive,
        Repository.verify_eq_ok.2 ⟨⟨record, hrecord, hcontext⟩, hvouches⟩⟩

/-- If the new expiry of a session cannot be represented, its token stops the program. -/
theorem authenticate_of_overflow (hfailures : store.failures = []) {token : String}
    {callerType : CallerType} {sessionKey : String} {context : Context}
    (finds : repository.Finds store token callerType sessionKey context) {ttl : Duration}
    (hrenewal : callerType.renewal? = some ttl) (hover : Instant.limit ≤ store.now + ttl) :
    Observed.perform (repository.authenticate token) store = .error .clockOverflow := by
  obtain ⟨claims, entry, haddress, -, -⟩ := id finds
  have hends := repository.perform_locate hfailures token
  rw [Repository.perform_authenticate]
  generalize Observed.perform (repository.locate token) store = outcome at hends
  cases hends with
  | found finds' hlimit leaves =>
    obtain ⟨rfl, rfl⟩ := finds'.eq_address haddress
    exact absurd (hlimit ttl hrenewal) (Nat.not_lt.2 hover)
  | refused hnot leaves => exact absurd finds (hnot _ _ _)
  | crashed => rfl

/-- After any course of operations a token that opens is authenticated exactly if the journal grants
it a context, which is then the answer. Only if the new expiry of a sliding session cannot be
represented, the program stops instead. -/
theorem authenticate_iff (course : Course repository journal store) (hread : journal.ReadsBack)
    {token : String} {claims : Claims} {callerType : CallerType} {bindingKey : String}
    (hopen : repository.cipher.openWith Claims.parse token = .ok claims)
    (htype : repository.callerType? claims.callerType = some callerType)
    (hbinding : Repository.bindingKey callerType claims = .ok bindingKey) :
    (∀ context, (∃ next, Observed.perform (repository.authenticate token) store =
        .ok (.ok context, next)) ↔
      journal.Grants (callerType.sessionKey bindingKey) token claims store.now context ∧
        ∀ ttl ∈ callerType.renewal?, store.now + ttl < Instant.limit) ∧
    (Observed.perform (repository.authenticate token) store = .error .clockOverflow ↔
      (∃ context,
        journal.Grants (callerType.sessionKey bindingKey) token claims store.now context) ∧
        ∃ ttl ∈ callerType.renewal?, Instant.limit ≤ store.now + ttl) := by
  have haddress := Repository.address_eq hopen htype hbinding
  have hfinds := course.finds_iff hread haddress
  have hends := repository.perform_locate (course.agree hread).1 token
  simp only [Repository.perform_authenticate, ← hfinds]
  generalize Observed.perform (repository.locate token) store = outcome at hends
  cases hends with
  | found finds hlimit leaves =>
    obtain ⟨rfl, rfl⟩ := finds.eq_address haddress
    refine ⟨fun context => ⟨?_, ?_⟩, ?_, ?_⟩
    · rintro ⟨next, h⟩
      cases h
      exact ⟨finds, hlimit⟩
    · rintro ⟨finds', -⟩
      exact ⟨_, by rw [finds'.unique finds]⟩
    · intro h
      cases h
    · rintro ⟨-, ttl, hrenewal, hover⟩
      exact absurd (hlimit ttl hrenewal) (Nat.not_lt.2 hover)
  | refused hnot leaves =>
    refine ⟨fun context => ⟨?_, ?_⟩, ?_, ?_⟩
    · rintro ⟨next, h⟩
      cases h
    · rintro ⟨finds, -⟩
      exact absurd finds (hnot _ _ _)
    · intro h
      cases h
    · rintro ⟨⟨context, finds⟩, -⟩
      exact absurd finds (hnot _ _ _)
  | crashed finds hrenewal hover =>
    obtain ⟨rfl, rfl⟩ := finds.eq_address haddress
    refine ⟨fun context => ⟨?_, ?_⟩, ?_, ?_⟩
    · rintro ⟨next, h⟩
      cases h
    · rintro ⟨-, hlimit⟩
      exact absurd (hlimit _ hrenewal) (Nat.not_lt.2 hover)
    · exact fun _ => ⟨⟨_, finds⟩, _, hrenewal, hover⟩
    · exact fun _ => rfl

end Course

/-! ## Sessions for nearly all time -/

/-- Sessions whose time begins anew with every use, and is nearly all that the clock can show. -/
def lasting : CallerType :=
  { CallerType.ofName "c" .principal with ttlSecs := some 9223372035854775807, sliding := true }

/-- The repository of sessions that last as long as 64 bits can say. -/
def lastingOnly : Repository :=
  .ofCallerTypes .ofLetter [lasting]

/-- What the token of a lasting session says. -/
def lastingClaims : Claims := ⟨"u", "", "c", none, 0, ∅⟩

/-- The token of a lasting session. -/
def lastingToken : String :=
  lastingOnly.cipher.issueValue (Vector.replicate 12 0) lastingClaims.toValue

/-- The caller in a lasting session. -/
def lastingContext : Context := (Context.ofNames "u" "" "c").withToken lastingToken

/-- The record of a lasting session. -/
def lastingRecord : Record := .begin lastingContext 0 lasting.ttl?

/-- A lasting session has been saved at the beginning of time. -/
def lastingJournal : Journal := [(0, .wrote "session:c:u" lastingRecord lasting.ttl?)]

/-- Any time may pass after a lasting session has been saved. -/
theorem course_lasting (span : Duration) :
    ∃ store, Course lastingOnly lastingJournal store ∧ store.now = span := by
  have hsave : ∃ next, next.now = 0 ∧
      Observed.perform (lastingOnly.save lastingContext "u" ⟨0, Vector.replicate 12 0⟩) .start =
        .ok (.ok lastingContext, next) := ⟨_, rfl, rfl⟩
  obtain ⟨next, hnow, hsave⟩ := hsave
  have course : Course lastingOnly lastingJournal next := Course.start.operation (.save hsave)
  exact ⟨_, course.wait span, by simp only [hnow, Nat.zero_add]⟩

/-- The record of the session is read back. -/
theorem ofBytes_lasting : Record.ofBytes lastingRecord.toBytes = .ok lastingRecord :=
  Record.ofBytes_toBytes_of_texts fun e he => ⟨lastingToken, by rw [List.mem_singleton.1 he]⟩

/-- Whatever has been written is read back. -/
theorem readsBack_lasting : lastingJournal.ReadsBack := by
  intro now sessionKey record ttl hmem
  obtain ⟨-, hdeed⟩ := Prod.mk.inj (List.mem_singleton.1 hmem)
  obtain ⟨-, hrecord, -⟩ := Deed.wrote.inj hdeed
  rw [hrecord]
  exact ofBytes_lasting

/-- The token of the session opens. -/
theorem openWith_lasting :
    lastingOnly.cipher.openWith Claims.parse lastingToken = .ok lastingClaims :=
  Claims.openWith_issueValue_of_plain _ _ rfl

/-- The session vouches for its token. -/
theorem vouches_lasting : Vouches lastingContext lastingToken lastingClaims where
  current := rfl
  bound device hdevice := by
    cases Context.deviceId?_eq_some_iff.2 hdevice
  enabled := rfl
  unlocked := rfl
  unexpired := rfl

/-- The session grants its token the caller as long as it lasts. -/
theorem grants_lasting (now : Instant) (hnow : now < Duration.ofSecs 9223372035854775807) :
    lastingJournal.Grants (lasting.sessionKey "u") lastingToken lastingClaims now
      lastingContext :=
  ⟨vouches_lasting, _, rfl, rfl, decide_eq_true hnow⟩

/-- The claims of the token name the key of the session. -/
theorem address_lasting : lastingOnly.address lastingToken =
    .ok (lastingClaims, lasting, lasting.sessionKey "u") :=
  Repository.address_eq openWith_lasting rfl rfl

/-- A second after it has been saved, the session is found, and its time can begin anew. -/
theorem authenticate_iff_of_lasting : ∃ store next, Course lastingOnly lastingJournal store ∧
    store.now = Duration.ofSecs 1 ∧
      Observed.perform (lastingOnly.authenticate lastingToken) store =
        .ok (.ok lastingContext, next) := by
  obtain ⟨store, course, hnow⟩ := course_lasting (Duration.ofSecs 1)
  have htype : lastingOnly.callerType? lastingClaims.callerType = some lasting := rfl
  have hbinding : Repository.bindingKey lasting lastingClaims = .ok "u" := rfl
  have hgrants := grants_lasting store.now (by rw [hnow]; decide)
  have hlimit : ∀ ttl ∈ lasting.renewal?, store.now + ttl < Instant.limit := by
    rw [hnow]
    decide
  obtain ⟨next, hperform⟩ := ((course.authenticate_iff readsBack_lasting openWith_lasting htype
    hbinding).1 lastingContext).2 ⟨hgrants, hlimit⟩
  exact ⟨store, next, course, hnow, hperform⟩

/-- After two thousand million seconds it stands still, yet its token stops the program: the new
expiry is later than any instant that the clock can show. -/
theorem granted_but_not_authenticated : ∃ repository journal store token claims callerType
    bindingKey context, Course repository journal store ∧ journal.ReadsBack ∧
      repository.cipher.openWith Claims.parse token = .ok claims ∧
      repository.callerType? claims.callerType = some callerType ∧
      Repository.bindingKey callerType claims = .ok bindingKey ∧
      journal.Grants (callerType.sessionKey bindingKey) token claims store.now context ∧
      ¬∃ next, Observed.perform (repository.authenticate token) store =
        .ok (.ok context, next) := by
  obtain ⟨store, course, hnow⟩ := course_lasting (Duration.ofSecs 2000000000)
  have hgrants := grants_lasting store.now (by rw [hnow]; decide)
  refine ⟨lastingOnly, lastingJournal, store, lastingToken, lastingClaims, lasting, "u",
    lastingContext, course, readsBack_lasting, openWith_lasting, rfl, rfl, hgrants, ?_⟩
  have hfinds := (course.finds_iff readsBack_lasting address_lasting lastingContext).2 hgrants
  have hover : Instant.limit ≤ store.now + Duration.ofSecs 9223372035854775807 := by
    rw [hnow]
    decide
  rw [Course.authenticate_of_overflow (course.agree readsBack_lasting).1 hfinds rfl hover]
  rintro ⟨next, h⟩
  cases h

end Turnstile.Session
