import Turnstile.Proofs.Session.Devices
import Turnstile.Proofs.Session.Resolution

/-!
# Superseded tokens

A session has one current token, and what is presented is compared with it as a whole. A token is
superseded exactly if the session that it leads to has another one, down to the last octet, and a
device's session is handed to whoever presents its own and to nobody who presents another. Both rest
on the comparison of octets, which misses no difference and invents none.
-/

namespace Turnstile.Session.Repository

open Store (Observed)

variable {repository : Repository} {store : Observed} {token : String} {claims : Claims}

/-- A token that leads nowhere cannot be opened, is of an unknown kind, or fails to name a
device. -/
theorem address_eq_error {e : ResolveError} (h : repository.address token = .error e) :
    (∃ fault, e = .cipher fault) ∨ (∃ name, e = .unknownCallerType name) ∨ e = .missingDevice := by
  cases hopen : repository.cipher.openWith Claims.parse token with
  | error fault =>
    rw [address, hopen] at h
    cases h
    exact .inl ⟨fault, rfl⟩
  | ok claims =>
    refine .inr ?_
    cases hknown : repository.callerType? claims.callerType with
    | none =>
      simp only [address, hopen, Except.mapError, Bind.bind, Except.bind, hknown] at h
      cases h
      exact .inl ⟨claims.callerType, rfl⟩
    | some callerType =>
      simp only [address, hopen, Except.mapError, Bind.bind, Except.bind, hknown] at h
      cases hkey : bindingKey callerType claims with
      | error fault =>
        rw [hkey] at h
        cases h
        exact .inr (eq_missingDevice_of_bindingKey hkey)
      | ok key =>
        rw [hkey] at h
        cases h

/-- A token is not superseded before its session is looked for. -/
theorem address_ne_tokenSuperseded : repository.address token ≠ .error .tokenSuperseded := by
  intro h
  obtain ⟨_, he⟩ | ⟨_, he⟩ | he := address_eq_error h <;> cases he

/-- A readable record supersedes every token but its own. -/
theorem verify_eq_tokenSuperseded {octets : Bytes} :
    verify token claims octets = .error .tokenSuperseded ↔
      ∃ record, Record.ofBytes octets = .ok record ∧ record.context.token? ≠ some token := by
  cases hrecord : Record.ofBytes octets with
  | error fault =>
    constructor
    · intro h
      rw [verify, hrecord] at h
      cases h
    · rintro ⟨record, h, -⟩
      cases h
  | ok record =>
    rw [verify_of_read hrecord]
    by_cases hcurrent : isCurrentToken record.context token = true
    case pos =>
      rw [if_pos hcurrent]
      constructor
      · intro h
        split at h
        · cases h
        · split at h <;> cases h
      · rintro ⟨other, hother, hne⟩
        cases hother
        exact absurd (isCurrentToken_eq_true.1 hcurrent) hne
    case neg =>
      rw [if_neg hcurrent, eq_self_iff_true, true_iff]
      exact ⟨record, rfl, fun h => hcurrent (isCurrentToken_eq_true.2 h)⟩

/-- A store supersedes a token: under the key that the token leads to there is a live record that
can be read, and it names another token or none. -/
def Supersedes (repository : Repository) (store : Observed) (token : String) : Prop :=
  ∃ claims callerType sessionKey entry record,
    repository.address token = .ok (claims, callerType, sessionKey) ∧
      store.live sessionKey = some entry ∧ Record.ofBytes entry.value = .ok record ∧
        record.context.token? ≠ some token

/-- Where there is a live record, the search for the session of a token is refused as the record
says. -/
theorem locate_eq_error_iff {callerType : CallerType} {sessionKey : String} {entry : Store.Entry}
    {e : ResolveError} (haddress : repository.address token = .ok (claims, callerType, sessionKey))
    (hreads : store.failures.lookup "get" = none) (hlive : store.live sessionKey = some entry) :
    (∃ next, Observed.perform (repository.locate token) store = .ok (.error e, next)) ↔
      verify token claims entry.value = .error e := by
  obtain ⟨mid, hspares, hread⟩ := perform_read store sessionKey ResolveError.store
  rw [hreads, hlive] at hread
  rw [locate, Observed.perform_bind, Observed.perform_of, haddress]
  dsimp only
  rw [Observed.perform_bind, hread]
  dsimp only [Option.elim_none, Option.map_some]
  rw [Observed.perform_bind, Observed.perform_of]
  cases verify token claims entry.value with
  | error fault =>
    constructor
    · rintro ⟨next, h⟩
      cases h
      rfl
    · intro h
      cases h
      exact ⟨mid, rfl⟩
  | ok context =>
    -- What follows is that the time of the session begins anew, and that is no reason to refuse.
    constructor
    · rintro ⟨next, h⟩
      obtain ⟨e, hrefresh, -⟩ | ⟨_, last, -, hrest⟩ := Observed.perform_bind_eq_ok h
      · cases (prolongs_refresh ((hspares.live sessionKey).trans hlive) hrefresh).1
      · cases hrest
    · intro h
      cases h

/-- The search for the session of a token finds the token superseded exactly if the store can be
read and supersedes it. -/
theorem locate_superseded_iff :
    (∃ next, Observed.perform (repository.locate token) store =
      .ok (.error .tokenSuperseded, next)) ↔
      store.failures.lookup "get" = none ∧ repository.Supersedes store token := by
  constructor
  · rintro ⟨next, h⟩
    have hlocate := h
    unfold locate at h
    obtain ⟨e, haddress, he, -⟩ | ⟨⟨claims, callerType, sessionKey⟩, haddress, hrest⟩ :=
      Observed.perform_of_bind_eq_ok h
    · cases he
      exact absurd haddress address_ne_tokenSuperseded
    obtain ⟨mid, -, hread⟩ := perform_read store sessionKey ResolveError.store
    dsimp only at hrest
    rw [Observed.perform_bind, hread] at hrest
    cases hreads : store.failures.lookup "get" with
    | some fault =>
      rw [hreads] at hrest
      cases hrest
    | none =>
      cases hlive : store.live sessionKey with
      | none =>
        rw [hreads, hlive] at hrest
        cases hrest
      | some entry =>
        have hverify := (locate_eq_error_iff haddress hreads hlive).1 ⟨next, hlocate⟩
        obtain ⟨record, hrecord, hother⟩ := verify_eq_tokenSuperseded.1 hverify
        exact ⟨rfl, _, _, _, entry, record, haddress, hlive, hrecord, hother⟩
  · rintro ⟨hreads, claims, callerType, sessionKey, entry, record, haddress, hlive, hrecord, hother⟩
    have hverify : verify token claims entry.value = .error .tokenSuperseded :=
      verify_eq_tokenSuperseded.2 ⟨record, hrecord, hother⟩
    exact (locate_eq_error_iff haddress hreads hlive).2 hverify

/-- An authentication finds a token superseded exactly if the search for its session does. -/
theorem authenticate_superseded_iff :
    (∃ next, Observed.perform (repository.authenticate token) store =
      .ok (.error .tokenSuperseded, next)) ↔
      store.failures.lookup "get" = none ∧ repository.Supersedes store token := by
  rw [← locate_superseded_iff, perform_authenticate]
  rcases Observed.perform (repository.locate token) store with crash | ⟨e | located, next⟩ <;> simp

/-- A device's write to a session is admitted exactly if it presents the session's token or returns
to it. -/
theorem admitDeviceWrite_iff {write : DeviceWrite} {stored : Context} :
    (∃ next, Observed.perform (admitDeviceWrite (some stored) write.context write.binding)
      write.before = .ok (.ok (), next)) ↔ write.Presents stored ∨ write.Returns stored := by
  obtain ⟨next, -, hperform⟩ :=
    perform_admitDeviceWrite write.before (some stored) write.context write.binding
  rw [hperform, ← write.mayReplace_iff, admission]
  cases mayReplace stored write.context write.binding <;> simp

/-- Octet strings of whatever lengths are found alike exactly if they are equal, and their gathered
difference is zero exactly if every pair of octets agrees. So an authentication is refused for a
superseded token exactly if the session's token is another text, and a device's write that does not
return to a session is admitted exactly if it presents that very text. -/
theorem tokens_compared_exactly (repository : Repository) :
    (∀ a b : Bytes, (Token.sameOctets a b = true ↔ a = b) ∧
      ((List.zipWith (· ^^^ ·) a b).foldl (· ||| ·) 0 = 0 ↔ ∀ pair ∈ a.zip b, pair.1 = pair.2)) ∧
    (∀ (store : Observed) (token : String),
      (∃ next, Observed.perform (repository.authenticate token) store =
        .ok (.error .tokenSuperseded, next)) ↔
        store.failures.lookup "get" = none ∧ repository.Supersedes store token) ∧
    ∀ (write : DeviceWrite) (stored : Context),
      (∃ next, Observed.perform (admitDeviceWrite (some stored) write.context write.binding)
        write.before = .ok (.ok (), next)) ↔ write.Presents stored ∨ write.Returns stored :=
  ⟨fun a b => ⟨Token.sameOctets_eq_true, Token.gathered_xor_eq_zero a b⟩,
    fun _ _ => authenticate_superseded_iff, fun _ _ => admitDeviceWrite_iff⟩

end Turnstile.Session.Repository
