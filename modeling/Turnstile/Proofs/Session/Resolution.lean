import Turnstile.Proofs.Session.Requests
import Turnstile.Proofs.Store.Behaviours

/-!
# Resolving a token over any store

To resolve a token is to read once, under the key that the token leads to, and to take the answer
for what it is. A reading that fails is an error and nothing else is one: whatever octets are found,
they hold a context that vouches for the token, or the caller is anonymous. All that may follow is
that the time of a sliding session begins anew, and it does not matter whether that succeeds.
-/

namespace Turnstile.Session

open Store (Action Behaviour Call Exchange)

/-- A token leads to a binding key: it opens to claims of a known caller type, and they name their
principal or, if the caller type is bound to devices, a device. -/
structure Leads (repository : Repository) (token : String) (claims : Claims)
    (callerType : CallerType) (bindingKey : String) : Prop where
  opens : repository.cipher.openWith Claims.parse token = .ok claims
  known : repository.callerType? claims.callerType = some callerType
  principal : callerType.binding = .principal → claims.principalId = bindingKey
  device : callerType.binding = .device → claims.deviceId = some bindingKey

/-- The calls and the outcome of looking for the session of a token. -/
inductive Locates (repository : Repository) (token : String) :
    List Exchange → Except ResolveError Located → Prop
  /-- The token leads nowhere. -/
  | astray {e : ResolveError} (he : e.isUnauthenticated = true)
      (hnowhere : ∀ claims callerType bindingKey,
        ¬Leads repository token claims callerType bindingKey) :
      Locates repository token [] (.error e)
  /-- The session cannot be read. -/
  | failed {claims : Claims} {callerType : CallerType} {bindingKey : String}
      (leads : Leads repository token claims callerType bindingKey) (fault : Store.StoreError) :
      Locates repository token [⟨.get (callerType.sessionKey bindingKey), .error fault⟩]
        (.error (.store fault))
  /-- There is no session, or none that vouches for the token. -/
  | refused {claims : Claims} {callerType : CallerType} {bindingKey : String}
      (leads : Leads repository token claims callerType bindingKey) {found : Option Bytes}
      {e : ResolveError} (he : e.isUnauthenticated = true)
      (hrefused : ∀ octets ∈ found, ∀ context,
        Repository.verify token claims octets ≠ .ok context) :
      Locates repository token [⟨.get (callerType.sessionKey bindingKey), .ok found⟩] (.error e)
  /-- The session vouches for the token, and its time goes on. -/
  | found {claims : Claims} {callerType : CallerType} {bindingKey : String}
      (leads : Leads repository token claims callerType bindingKey) {octets : Bytes}
      {context : Context} (hverify : Repository.verify token claims octets = .ok context)
      (hstays : callerType.renewal? = none) :
      Locates repository token [⟨.get (callerType.sessionKey bindingKey), .ok (some octets)⟩]
        (.ok ⟨context, callerType.sessionKey bindingKey⟩)
  /-- The session vouches for the token, and its time is to begin anew. -/
  | renewed {claims : Claims} {callerType : CallerType} {bindingKey : String}
      (leads : Leads repository token claims callerType bindingKey) {octets : Bytes}
      {context : Context} (hverify : Repository.verify token claims octets = .ok context)
      {ttl : Duration} (hrenewal : callerType.renewal? = some ttl)
      (answer : Except Store.StoreError Bool) :
      Locates repository token [⟨.expire (callerType.sessionKey bindingKey) ttl, answer⟩,
        ⟨.get (callerType.sessionKey bindingKey), .ok (some octets)⟩]
        (.ok ⟨context, callerType.sessionKey bindingKey⟩)

/-- What is told of looking for a session: an error of the store is one, and any other says that
there is none. -/
def resolved : Except ResolveError Located → Except IdentityError (Option Context)
  | .ok located => .ok (some located.context)
  | .error (.store fault) => .error (.ofStore fault)
  | .error _ => .ok none

/-- What comes of reading the session of a token with some claims. -/
def verdict (token : String) (claims : Claims) :
    Except Store.StoreError (Option Bytes) → Except IdentityError (Option Context)
  | .error fault => .error (.ofStore fault)
  | .ok none => .ok none
  | .ok (some octets) => .ok (Repository.verify token claims octets).toOption

/-- A token leads to one key at most. -/
theorem Leads.unique {repository : Repository} {token : String} {claims claims' : Claims}
    {callerType callerType' : CallerType} {bindingKey bindingKey' : String}
    (h : Leads repository token claims callerType bindingKey)
    (h' : Leads repository token claims' callerType' bindingKey') :
    claims' = claims ∧ callerType' = callerType ∧ bindingKey' = bindingKey := by
  cases h.opens.symm.trans h'.opens
  cases h.known.symm.trans h'.known
  refine ⟨rfl, rfl, ?_⟩
  cases hbinding : callerType.binding with
  | principal => exact (h'.principal hbinding).symm.trans (h.principal hbinding)
  | device => exact Option.some.inj ((h'.device hbinding).symm.trans (h.device hbinding))

namespace Repository

variable {repository : Repository} {token : String}

/-- Claims are bound to their principal or to their device. -/
theorem bindingKey_eq_ok {callerType : CallerType} {claims : Claims} {key : String} :
    bindingKey callerType claims = .ok key ↔
      (callerType.binding = .principal → claims.principalId = key) ∧
        (callerType.binding = .device → claims.deviceId = some key) := by
  unfold bindingKey
  cases callerType.binding with
  | principal => simp
  | device => cases claims.deviceId <;> simp

/-- Claims may fail to name a device, and nothing else. -/
theorem eq_missingDevice_of_bindingKey {callerType : CallerType} {claims : Claims}
    {e : ResolveError} (h : bindingKey callerType claims = .error e) : e = .missingDevice := by
  unfold bindingKey at h
  split at h
  · cases h
  · split at h
    · cases h
    · cases h
      rfl

/-- A token leads to the key of a session, or nowhere, which is not an error of the store. -/
theorem address_cases (repository : Repository) (token : String) :
    (∃ claims callerType bindingKey, Leads repository token claims callerType bindingKey ∧
      repository.address token = .ok (claims, callerType, callerType.sessionKey bindingKey)) ∨
    ∃ e, repository.address token = .error e ∧ e.isUnauthenticated = true ∧
      ∀ claims callerType bindingKey, ¬Leads repository token claims callerType bindingKey := by
  cases hopen : repository.cipher.openWith Claims.parse token with
  | error fault =>
    refine .inr ⟨.cipher fault, by rw [address, hopen]; rfl, rfl, fun _ _ _ leads => ?_⟩
    cases hopen.symm.trans leads.opens
  | ok claims =>
    have hclaims : (repository.cipher.openWith Claims.parse token).mapError ResolveError.cipher =
        .ok claims := by
      rw [hopen]
      rfl
    cases hknown : repository.callerType? claims.callerType with
    | none =>
      refine .inr ⟨.unknownCallerType claims.callerType, ?_, rfl, fun _ _ _ leads => ?_⟩
      · simp only [address, hclaims, Bind.bind, Except.bind, hknown]
        rfl
      · cases hopen.symm.trans leads.opens
        cases hknown.symm.trans leads.known
    | some callerType =>
      cases hkey : bindingKey callerType claims with
      | error e =>
        obtain rfl := eq_missingDevice_of_bindingKey hkey
        refine .inr ⟨.missingDevice, ?_, rfl, fun _ _ _ leads => ?_⟩
        · simp only [address, hclaims, Bind.bind, Except.bind, hknown, hkey]
        · cases hopen.symm.trans leads.opens
          cases hknown.symm.trans leads.known
          cases hkey.symm.trans (bindingKey_eq_ok.2 ⟨leads.principal, leads.device⟩)
      | ok key =>
        obtain ⟨hprincipal, hdevice⟩ := bindingKey_eq_ok.1 hkey
        exact .inl ⟨claims, callerType, key, ⟨hopen, hknown, hprincipal, hdevice⟩,
          address_eq hopen hknown hkey⟩

/-- What is wrong with a stored record is not an error of the store. -/
theorem isUnauthenticated_of_verify {claims : Claims} {octets : Bytes} {e : ResolveError}
    (h : verify token claims octets = .error e) : e.isUnauthenticated = true := by
  cases hrecord : Record.ofBytes octets with
  | error fault =>
    unfold verify at h
    rw [hrecord] at h
    cases h
    rfl
  | ok record =>
    rw [verify_of_read hrecord] at h
    split at h
    · split at h
      · cases h
        rfl
      · split at h <;> cases h
        rfl
    · cases h
      rfl

/-- To begin the time of a session anew is one call at most, whose answer does not matter. -/
theorem obeys_refresh_iff {rule : List Exchange → Call → Prop}
    {goal : List Exchange → Except ResolveError Unit → Prop} {told : List Exchange}
    (callerType : CallerType) (sessionKey : String) :
    Action.Obeys rule goal (refresh callerType sessionKey) told ↔
      match callerType.renewal? with
      | none => goal told (.ok ())
      | some ttl => rule told (.expire sessionKey ttl) ∧
          ∀ answer, goal (⟨.expire sessionKey ttl, answer⟩ :: told) (.ok ()) := by
  unfold refresh CallerType.renewal?
  cases callerType.sliding with
  | false => rfl
  | true =>
    cases callerType.ttl? with
    | none => rfl
    | some ttl =>
      refine and_congr_right fun _ => forall_congr' fun answer => ?_
      cases answer <;> rfl

/-- To look for the session of a token is to read it and, if it vouches for the token, to begin its
time anew. -/
theorem obeys_locates (repository : Repository) (token : String) :
    Action.Obeys (fun _ _ => True) (Locates repository token) (repository.locate token) [] := by
  unfold locate
  rw [Action.obeys_bind, Action.obeys_of]
  obtain ⟨claims, callerType, bindingKey, leads, haddress⟩ | ⟨e, haddress, he, hnowhere⟩ :=
    address_cases repository token
  · rw [haddress]
    refine (Action.obeys_ask_bind ..).2 ⟨trivial, fun found => ?_, fun fault => ?_⟩
    · cases found with
      | none => exact .refused leads rfl nofun
      | some octets =>
        refine (Action.obeys_bind _ _).2 ((Action.obeys_of _).2 ?_)
        cases hverify : verify token claims octets with
        | error e =>
          refine .refused leads (isUnauthenticated_of_verify hverify) ?_
          rintro _ ⟨⟩ context hcontext
          cases hverify.symm.trans hcontext
        | ok context =>
          refine (Action.obeys_bind _ _).2 ((obeys_refresh_iff callerType _).2 ?_)
          cases hrenewal : callerType.renewal? with
          | none => exact .found leads hverify hrenewal
          | some ttl => exact ⟨trivial, .renewed leads hverify hrenewal⟩
    · exact .failed leads fault
  · rw [haddress]
    exact .astray he hnowhere

/-- To resolve a token is to look for its session and to tell what has come of it. -/
theorem obeys_resolve (repository : Repository) (token : String) :
    Action.Obeys (fun _ _ => True)
      (fun told outcome => ∃ located, Locates repository token told located ∧
        outcome = resolved located)
      (repository.resolve token) [] := by
  unfold resolve authenticate
  rw [Action.obeys_bind, Action.obeys_lift, Action.obeys_bind]
  refine (obeys_locates repository token).imp fun told located hlocates => ?_
  cases located with
  | ok located => exact ⟨_, hlocates, rfl⟩
  | error e =>
    cases e <;> exact ⟨_, hlocates, rfl⟩

/-! ## Over a store that behaves in some way -/

section Verdicts

variable {claims : Claims} {read : Except Store.StoreError (Option Bytes)}

/-- Only a reading that has failed is an error. -/
theorem verdict_eq_error {e : IdentityError} :
    verdict token claims read = .error e ↔ ∃ fault, read = .error fault ∧ e = .ofStore fault := by
  rcases read with fault | _ | octets
  · simp [verdict, eq_comm]
  · simp [verdict]
  · simp [verdict]

/-- A context is told exactly if it is in the record that is read, and vouches for the token. -/
theorem verdict_eq_some {context : Context} :
    verdict token claims read = .ok (some context) ↔ ∃ octets record,
      read = .ok (some octets) ∧ Record.ofBytes octets = .ok record ∧ record.context = context ∧
        Vouches context token claims := by
  rcases read with fault | _ | octets
  · simp [verdict]
  · simp [verdict]
  · have haccepts : verdict token claims (.ok (some octets)) = .ok (some context) ↔
        verify token claims octets = .ok context := by
      simp only [verdict, Except.ok.injEq]
      cases verify token claims octets <;> simp [Except.toOption]
    rw [haccepts, verify_eq_ok]
    constructor
    · rintro ⟨⟨record, hrecord, hcontext⟩, hvouches⟩
      exact ⟨octets, record, rfl, hrecord, hcontext, hvouches⟩
    · rintro ⟨_, record, ⟨⟩, hrecord, hcontext, hvouches⟩
      exact ⟨⟨record, hrecord, hcontext⟩, hvouches⟩

/-- Nobody is told exactly if there is nothing to read, or nothing readable that vouches for the
token. -/
theorem verdict_eq_none :
    verdict token claims read = .ok none ↔ ∃ found, read = .ok found ∧
      ∀ octets ∈ found, ∀ record, Record.ofBytes octets = .ok record →
        ¬Vouches record.context token claims := by
  constructor
  · intro hnone
    rcases read with fault | found
    · cases hnone
    · refine ⟨found, rfl, fun octets hoctets record hrecord hvouches => ?_⟩
      have hsome := verdict_eq_some.2 ⟨octets, record, congrArg _ hoctets, hrecord, rfl, hvouches⟩
      cases hnone.symm.trans hsome
  · rintro ⟨found, rfl, hnobody⟩
    cases hverdict : verdict token claims (.ok found) with
    | error e =>
      obtain ⟨fault, hfault, -⟩ := verdict_eq_error.1 hverdict
      cases hfault
    | ok told =>
      cases told with
      | none => rfl
      | some context =>
        obtain ⟨octets, record, hfound, hrecord, rfl, hvouches⟩ := verdict_eq_some.1 hverdict
        cases hfound
        exact absurd hvouches (hnobody octets rfl record hrecord)

/-- If what is read is not accepted, nobody is told. -/
theorem verdict_of_refused {found : Option Bytes}
    (h : ∀ octets ∈ found, ∀ context, verify token claims octets ≠ .ok context) :
    verdict token claims (.ok found) = .ok none := by
  rw [verdict_eq_none]
  refine ⟨found, rfl, fun octets hoctets record hrecord hvouches => ?_⟩
  exact h octets hoctets record.context (verify_eq_ok.2 ⟨⟨record, hrecord, rfl⟩, hvouches⟩)

end Verdicts

end Repository

/-- Whoever is not authenticated is nobody. -/
theorem resolved_of_isUnauthenticated {e : ResolveError} (h : e.isUnauthenticated = true) :
    resolved (.error e) = .ok none := by
  cases e with
  | store => cases h
  | _ => rfl

/-- Where the token leads, its session is read first, and the outcome is what is read there. Only if
the outcome is a context and the session slides, its time begins anew; there is no other call. -/
theorem Locates.of_leads {repository : Repository} {token : String} {claims : Claims}
    {callerType : CallerType} {bindingKey : String}
    (leads : Leads repository token claims callerType bindingKey) {told : List Exchange}
    {located : Except ResolveError Located} (h : Locates repository token told located)
    {behaviour : Behaviour} (hgave : behaviour.Gave told) :
    let sessionKey := callerType.sessionKey bindingKey
    let read := behaviour [] (.get sessionKey)
    resolved located = verdict token claims read ∧
      ((told = [⟨.get sessionKey, read⟩] ∧
          ∀ context, resolved located = .ok (some context) → callerType.renewal? = none) ∨
        ∃ context ttl answer, resolved located = .ok (some context) ∧
          callerType.renewal? = some ttl ∧
            told = [⟨.expire sessionKey ttl, answer⟩, ⟨.get sessionKey, read⟩]) := by
  cases h with
  | astray he hnowhere => exact absurd leads (hnowhere _ _ _)
  | failed leads' fault =>
    obtain ⟨rfl, rfl, rfl⟩ := leads.unique leads'
    obtain ⟨hread, -⟩ := hgave
    dsimp only at hread ⊢
    rw [← hread]
    exact ⟨rfl, .inl ⟨rfl, nofun⟩⟩
  | refused leads' he hrefused =>
    obtain ⟨rfl, rfl, rfl⟩ := leads.unique leads'
    obtain ⟨hread, -⟩ := hgave
    dsimp only at hread ⊢
    rw [← hread, resolved_of_isUnauthenticated he, Repository.verdict_of_refused hrefused]
    exact ⟨rfl, .inl ⟨rfl, nofun⟩⟩
  | found leads' hverify hstays =>
    obtain ⟨rfl, rfl, rfl⟩ := leads.unique leads'
    obtain ⟨hread, -⟩ := hgave
    dsimp only at hread ⊢
    rw [← hread, verdict, hverify]
    exact ⟨rfl, .inl ⟨rfl, fun _ _ => hstays⟩⟩
  | renewed leads' hverify hrenewal answer =>
    obtain ⟨rfl, rfl, rfl⟩ := leads.unique leads'
    obtain ⟨-, hread, -⟩ := hgave
    dsimp only at hread ⊢
    rw [← hread, verdict, hverify]
    exact ⟨rfl, .inr ⟨_, _, answer, rfl, hrenewal, rfl⟩⟩

namespace Repository

variable {repository : Repository} {token : String}

/-- A token that leads nowhere resolves to nobody without any call. -/
theorem perform_resolve_of_nowhere
    (hnowhere : ∀ claims callerType bindingKey,
      ¬Leads repository token claims callerType bindingKey) (behaviour : Behaviour) :
    behaviour.perform (repository.resolve token) [] = (.ok none, []) := by
  obtain ⟨⟨located, hlocates, houtcome⟩, -⟩ :=
    behaviour.perform_of_obeys (obeys_resolve repository token)
  generalize behaviour.perform (repository.resolve token) [] = result at hlocates houtcome
  obtain ⟨outcome, told⟩ := result
  dsimp only at hlocates houtcome
  cases hlocates with
  | astray he => rw [houtcome, resolved_of_isUnauthenticated he]
  | failed leads => exact absurd leads (hnowhere _ _ _)
  | refused leads => exact absurd leads (hnowhere _ _ _)
  | found leads => exact absurd leads (hnowhere _ _ _)
  | renewed leads => exact absurd leads (hnowhere _ _ _)

/-- A token that leads to a session resolves to what is read there. -/
theorem perform_resolve_of_leads {claims : Claims} {callerType : CallerType} {bindingKey : String}
    (leads : Leads repository token claims callerType bindingKey) (behaviour : Behaviour) :
    let sessionKey := callerType.sessionKey bindingKey
    let read := behaviour [] (.get sessionKey)
    ∃ told, behaviour.perform (repository.resolve token) [] = (verdict token claims read, told) ∧
      ((told = [⟨.get sessionKey, read⟩] ∧
          ∀ context, verdict token claims read = .ok (some context) →
            callerType.renewal? = none) ∨
        ∃ context ttl answer, verdict token claims read = .ok (some context) ∧
          callerType.renewal? = some ttl ∧
            told = [⟨.expire sessionKey ttl, answer⟩, ⟨.get sessionKey, read⟩]) := by
  obtain ⟨⟨located, hlocates, houtcome⟩, hgave⟩ :=
    behaviour.perform_of_obeys (obeys_resolve repository token)
  generalize behaviour.perform (repository.resolve token) [] = result at hlocates houtcome hgave
  obtain ⟨outcome, told⟩ := result
  obtain ⟨hverdict, hcalls⟩ := hlocates.of_leads leads hgave
  rw [hverdict] at houtcome hcalls
  exact ⟨told, congrArg (·, told) houtcome, hcalls⟩

/-- Whatever the store does, a token that leads nowhere resolves to nobody without any call. One
that leads to a session has it read once. The outcome is an error exactly if that reading has
failed, and a context exactly if it is in a readable record and vouches for the token; else it is
nobody. When a context has been accepted, the time of a sliding session begins anew. There is no
other call, and no other answer of the store than that to the reading matters. -/
theorem resolve_over_any_store (repository : Repository) (token : String) (behaviour : Behaviour) :
    ∃ outcome told, behaviour.perform (repository.resolve token) [] = (outcome, told) ∧
      ((∀ claims callerType bindingKey, ¬Leads repository token claims callerType bindingKey) →
        outcome = .ok none ∧ told = []) ∧
      ∀ claims callerType bindingKey, Leads repository token claims callerType bindingKey →
        let sessionKey := callerType.sessionKey bindingKey
        let read := behaviour [] (.get sessionKey)
        (∀ e, outcome = .error e ↔ ∃ fault, read = .error fault ∧ e = .ofStore fault) ∧
        (∀ context, outcome = .ok (some context) ↔ ∃ octets record, read = .ok (some octets) ∧
          Record.ofBytes octets = .ok record ∧ record.context = context ∧
            Vouches context token claims) ∧
        (outcome = .ok none ↔ ∃ found, read = .ok found ∧ ∀ octets ∈ found, ∀ record,
          Record.ofBytes octets = .ok record → ¬Vouches record.context token claims) ∧
        ((told = [⟨.get sessionKey, read⟩] ∧
            ∀ context, outcome = .ok (some context) → callerType.renewal? = none) ∨
          ∃ context ttl answer, outcome = .ok (some context) ∧ callerType.renewal? = some ttl ∧
            told = [⟨.expire sessionKey ttl, answer⟩, ⟨.get sessionKey, read⟩]) ∧
        ∀ other : Behaviour, other [] (.get sessionKey) = read →
          ∃ told', other.perform (repository.resolve token) [] = (outcome, told') := by
  by_cases hleads : ∃ claims callerType bindingKey,
      Leads repository token claims callerType bindingKey
  · obtain ⟨claims, callerType, bindingKey, leads⟩ := hleads
    obtain ⟨told, hperform, hcalls⟩ := perform_resolve_of_leads leads behaviour
    refine ⟨_, told, hperform, fun hnowhere => absurd leads (hnowhere _ _ _), ?_⟩
    intro claims' callerType' bindingKey' leads'
    obtain ⟨rfl, rfl, rfl⟩ := leads.unique leads'
    refine ⟨fun e => verdict_eq_error, fun context => verdict_eq_some, verdict_eq_none, hcalls, ?_⟩
    intro other hother
    obtain ⟨told', hperform', -⟩ := perform_resolve_of_leads leads other
    rw [hother] at hperform'
    exact ⟨told', hperform'⟩
  · have hnowhere : ∀ claims callerType bindingKey,
        ¬Leads repository token claims callerType bindingKey := fun _ _ _ leads =>
      hleads ⟨_, _, _, leads⟩
    refine ⟨_, _, perform_resolve_of_nowhere hnowhere behaviour, fun _ => ⟨rfl, rfl⟩, ?_⟩
    exact fun _ _ _ leads => absurd leads (hnowhere _ _ _)

end Repository

/-! ## A store that only reads -/

/-- A store that finds the session of a minute under every key, and refuses all other calls. -/
def readOnly : Behaviour := fun _ call =>
  match call with
  | .get _ => .ok (some minuteEntry.value)
  | .set .. | .delete _ | .expire .. => .error (.unavailable "read only")

/-- The token of that session leads to the device `x`. -/
theorem leads_minute : Leads minutesOnly minuteToken minuteClaims minuteOnDevice "x" where
  opens := openWith_minute
  known := rfl
  principal := nofun
  device := fun _ => rfl

/-- The token resolves to its caller, though the time of the session cannot begin anew. -/
theorem resolve_over_any_store_of_readOnly : ∃ answer,
    readOnly.perform (minutesOnly.resolve minuteToken) [] = (.ok (some minuteContext),
      [⟨.expire (minuteOnDevice.sessionKey "x") (Duration.ofSecs 60), answer⟩,
        ⟨.get (minuteOnDevice.sessionKey "x"), .ok (some minuteEntry.value)⟩]) := by
  obtain ⟨outcome, told, hperform, -, hleads⟩ :=
    Repository.resolve_over_any_store minutesOnly minuteToken readOnly
  obtain ⟨-, hsome, -, hcalls, -⟩ := hleads _ _ _ leads_minute
  have houtcome := (hsome minuteContext).2
    ⟨_, minuteRecord, rfl, ofBytes_minute, rfl, vouches_minute⟩
  have hrenewal : minuteOnDevice.renewal? = some (Duration.ofSecs 60) := rfl
  rcases hcalls with ⟨-, hstays⟩ | ⟨context, ttl, answer, -, hrenewal', htold⟩
  · cases hrenewal.symm.trans (hstays _ houtcome)
  · cases hrenewal.symm.trans hrenewal'
    rw [houtcome, htold] at hperform
    exact ⟨answer, hperform⟩

end Turnstile.Session
