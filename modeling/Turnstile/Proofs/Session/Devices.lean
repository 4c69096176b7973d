import Turnstile.Proofs.Json.Records
import Turnstile.Proofs.Session.Races
import Turnstile.Proofs.Session.Requests
import Turnstile.Proofs.Token.Sealing

/-!
# Sessions of devices

A device's session belongs to a principal. It is taken over only by whoever presents its current
token, or by a login after it has lapsed or become unreadable; a call that may not write leaves
everything as it is.
-/

namespace Turnstile.Session

open Store (Observed Entry)
open Bytes (ofChars)
open Json (Value)
open Json.Reader (byte)

/-! ## Whose record it is -/

/-- The principal of a context is read back. -/
theorem Context.principalId_of_read {context found : Context} {depth : Nat} {s rest : Bytes}
    (h : Context.layout.read (depth + 1) (ofChars context.toValue.render ++ s) =
      .ok (found, rest)) : found.principalId = context.principalId := by
  have hdraft : ∃ draft : Context.Draft, draft.principalId = some context.principalId ∧
      Context.layout.finish draft = .ok found := by
    refine Context.layout.read_object ?_ ?_ h
    · intro s draft rest hmember
      have hfield : Context.layout.member depth Context.layout.blank "principal_id" =
          (Json.Reader.colon >>= fun _ =>
            (Context.layout.fields[0]).read depth Context.layout.blank) := rfl
      rw [hfield, Text.bind_of_ok (Json.Reader.colon_cons _)] at hmember
      obtain ⟨text, htext, rfl⟩ := Json.Field.read_of hmember
      rw [Json.Reader.text_render] at htext
      cases htext
      rfl
    · intro draft key s next rest hdraft hmember
      obtain ⟨field, hfield, hpresent, mid, hread⟩ | rfl := Context.layout.member_cases hmember
      · simp only [Context.layout, List.mem_cons, List.not_mem_nil, or_false] at hfield
        rcases hfield with rfl | rfl | rfl | rfl | rfl | rfl | rfl | rfl
        · simp [Json.Field.of, hdraft] at hpresent
        all_goals
          obtain ⟨a, -, rfl⟩ := Json.Field.read_of hread
          exact hdraft
      · exact hdraft
  obtain ⟨draft, hprincipal, hfinish⟩ := hdraft
  obtain ⟨principalId, displayName, callerType, _⟩ := draft
  obtain rfl : principalId = some context.principalId := hprincipal
  cases displayName <;> cases callerType <;> cases hfinish
  rfl

/-- The principal of a record is read back. -/
theorem Record.principalId_of_ofBytes {record found : Record}
    (h : Record.ofBytes record.toBytes = .ok found) :
    found.context.principalId = record.context.principalId := by
  obtain ⟨rest, hread⟩ := Json.Reader.document_eq_ok h
  rw [Record.toBytes, Value.toBytes, Value.toText, Bytes.ofText_ofList,
    ← List.append_nil (ofChars _)] at hread
  have hdraft : ∃ draft : Record.Draft, (∃ context, draft.context = some context ∧
      context.principalId = record.context.principalId) ∧
      Record.layout.finish draft = .ok found := by
    refine Record.layout.read_object ?_ ?_ hread
    · intro s draft rest hmember
      have hfield : Record.layout.member 126 Record.layout.blank "context" =
          (Json.Reader.colon >>= fun _ => (Record.layout.fields[0]).read 126 Record.layout.blank) :=
        rfl
      rw [hfield, Text.bind_of_ok (Json.Reader.colon_cons _)] at hmember
      obtain ⟨context, hcontext, rfl⟩ := Json.Field.read_of hmember
      exact ⟨context, rfl, Context.principalId_of_read hcontext⟩
    · rintro draft key s next rest ⟨context, hcontext, hprincipal⟩ hmember
      obtain ⟨field, hfield, hpresent, mid, hread⟩ | rfl := Record.layout.member_cases hmember
      · simp only [Record.layout, List.mem_cons, List.not_mem_nil, or_false] at hfield
        rcases hfield with rfl | rfl
        · simp [Json.Field.of, hcontext] at hpresent
        · obtain ⟨a, -, rfl⟩ := Json.Field.read_of hread
          exact ⟨context, hcontext, hprincipal⟩
      · exact ⟨context, hcontext, hprincipal⟩
  obtain ⟨⟨read, expiresAtMs⟩, ⟨context, hcontext, hprincipal⟩, hfinish⟩ := hdraft
  obtain rfl : read = some context := hcontext
  cases hfinish
  exact hprincipal

/-- Octets belong to a principal: they are a record of the principal, and no other one is read from
them. -/
structure BelongsTo (octets : Bytes) (principalId : String) : Prop where
  written : ∃ record : Record, record.context.principalId = principalId ∧
    (Record.ofBytes octets = .ok record ∨ octets = record.toBytes)
  read : ∀ record, Record.ofBytes octets = .ok record → record.context.principalId = principalId

/-- What is written for a record belongs to the principal of the record. -/
theorem BelongsTo.of_written (record : Record) :
    BelongsTo record.toBytes record.context.principalId :=
  ⟨⟨record, rfl, .inr rfl⟩, fun _ hread => Record.principalId_of_ofBytes hread⟩

/-- What a context is read from belongs to the principal of the context. -/
theorem BelongsTo.of_read {entry : Entry} {context : Context}
    (h : storedContext? entry = some context) : BelongsTo entry.value context.principalId := by
  obtain ⟨record, hread, rfl⟩ := storedContext?_eq_some.1 h
  refine ⟨⟨record, rfl, .inl hread⟩, fun record' hread' => ?_⟩
  cases hread.symm.trans hread'
  rfl

/-! ## The token of a login -/

/-- A token that is set is the current one. -/
theorem Context.token?_withToken (context : Context) (token : String) :
    (context.withToken token).token? = some token := by
  rw [Context.token?, Context.withToken, Context.withMetadata, Table.get?_insert_self]
  rfl

/-- To be bound to a device does not give a context a token. -/
theorem Repository.token?_of_bind {context bound : Context} {callerType : CallerType}
    {bindingKey : String} (hdevice : callerType.binding = .device)
    (hnone : context.token? = none) (h : bind context callerType bindingKey = .ok bound) :
    bound.token? = none := by
  have hkeys : deviceKey ≠ tokenKey := by decide
  rw [bind, hdevice] at h
  dsimp only at h
  split at h
  · cases h
    rw [Context.token?, Context.withDevice, Context.withMetadata, Table.get?_insert, if_neg hkeys]
    exact hnone
  · split at h
    · cases h
      exact hnone
    · cases h

/-- A context without its token has none. -/
theorem Context.token?_withoutToken (context : Context) : context.withoutToken.token? = none := by
  rw [Context.token?, Context.withoutToken, Table.get?_erase, if_pos rfl]
  rfl

/-! ## Writes of devices -/

/-- A device's write, and the store that it finds. -/
structure DeviceWrite where
  before : Observed
  context : Context
  binding : DeviceBinding
  moment : Moment

namespace DeviceWrite

variable (write : DeviceWrite)

/-- What comes of the write. -/
def outcome (repository : Repository) :
    Except Crash (Except IdentityError Context × Observed) :=
  Observed.perform (repository.saveForDevice write.context write.binding write.moment) write.before

/-- The key of the device's session. -/
def sessionKey (callerType : CallerType) : String :=
  callerType.sessionKey write.binding.deviceId

/-- The readable context that the write finds. -/
def existing? (callerType : CallerType) : Option Context :=
  known? write.before (write.sessionKey callerType)

/-- The write presents the current token of a context. -/
def Presents (current : Context) : Prop :=
  ∃ token, write.binding.presentedToken = some token ∧ current.token? = some token

/-- The write is made for the principal of a context, and names its user id or is a login that names
none. -/
def Returns (current : Context) : Prop :=
  write.context.principalId = current.principalId ∧
    (write.binding.presentedUserId = some current.principalId ∨
      (write.binding.isLogin = true ∧ write.binding.presentedUserId = none))

/-- A write may replace a context if it presents its token or returns to it. -/
theorem mayReplace_iff {current : Context} :
    Repository.mayReplace current write.context write.binding = true ↔
      write.Presents current ∨ write.Returns current := by
  simp only [Repository.mayReplace, Bool.or_eq_true, Bool.and_eq_true, beq_iff_eq,
    Option.any_eq_true, Repository.isCurrentToken_eq_true, Option.isNone_iff_eq_none]
  rfl

variable {write : DeviceWrite} {repository : Repository} {callerType : CallerType}

/-- A device's write has been admitted, and the context that it answers has been stored. -/
structure Stores (repository : Repository) (write : DeviceWrite) (callerType : CallerType)
    (bound : Context) (next : Observed) : Prop where
  known : repository.callerType? write.context.callerType = some callerType
  device : callerType.binding = .device
  admitted : Repository.admission (write.existing? callerType) write.context write.binding = .ok ()
  binds : Repository.bind (Repository.incoming write.context write.binding) callerType
    write.binding.deviceId = .ok bound
  written : Puts (write.sessionKey callerType)
    ⟨(Record.begin (repository.withCurrentToken bound write.moment) write.moment.unixMs
      callerType.ttl?).toBytes, callerType.ttl?.map (write.before.now + ·)⟩ write.before next

/-- A device's write that comes to an end has failed and changed nothing, or stored the context that
it answers. -/
theorem outcome_cases {answer : Except IdentityError Context} {next : Observed}
    (h : write.outcome repository = .ok (answer, next)) :
    (∃ e, answer = .error e ∧ Spares write.before next) ∨
      ∃ callerType bound, answer = .ok (repository.withCurrentToken bound write.moment) ∧
        Stores repository write callerType bound next := by
  obtain hfailed | ⟨callerType, mid, htype, hdevice, hadmitted, hmid, hsave⟩ :=
    Repository.saveForDevice_cases h
  · exact .inl hfailed
  obtain ⟨e, rfl, hspares⟩ | ⟨callerType', bound, htype', hbind, rfl, hputs⟩ :=
    Repository.save_cases hsave
  · exact .inl ⟨e, rfl, hmid.trans hspares⟩
  · rw [(Repository.incoming_same _ _).1] at htype'
    obtain rfl := Option.some.inj (htype.symm.trans htype')
    rw [hmid.now] at hputs
    exact .inr ⟨callerType, bound, rfl, htype, hdevice, hadmitted, hbind, .of_spares hmid hputs⟩

namespace Stores

variable {bound : Context} {next : Observed}

/-- The new entry belongs to the principal of the write. -/
theorem belongsTo (h : Stores repository write callerType bound next) :
    ∃ entry, next.live (write.sessionKey callerType) = some entry ∧
      BelongsTo entry.value write.context.principalId := by
  have hprincipal : (repository.withCurrentToken bound write.moment).principalId =
      write.context.principalId := by
    rw [Repository.principalId_withCurrentToken, Repository.principalId_of_bind h.binds,
      (Repository.incoming_same _ _).2]
  refine ⟨_, (h.written.live _).trans (if_pos rfl), ?_⟩
  rw [← hprincipal]
  dsimp only
  exact .of_written _

/-- Where there was no readable context, the write was a login. -/
theorem isLogin_of_none (h : Stores repository write callerType bound next)
    (hnone : write.existing? callerType = none) : write.binding.isLogin = true := by
  have hadmitted := h.admitted
  rw [hnone] at hadmitted
  by_contra hnot
  rw [Repository.admission, if_neg hnot] at hadmitted
  cases hadmitted

/-- Where there was one, the write presented its token or returned to it. -/
theorem mayReplace_of_some (h : Stores repository write callerType bound next) {current : Context}
    (hsome : write.existing? callerType = some current) :
    write.Presents current ∨ write.Returns current := by
  have hadmitted := h.admitted
  rw [hsome] at hadmitted
  by_contra hnot
  rw [Repository.admission, if_neg (fun hmay => hnot (write.mayReplace_iff.1 hmay))] at hadmitted
  cases hadmitted

end Stores

/-- The token that is minted for a context. -/
def mintedToken (write : DeviceWrite) (repository : Repository) (bound : Context) : String :=
  repository.cipher.issueValue write.moment.nonce
    (Claims.ofContext bound write.moment.unixMs).toValue

/-- How the session of a device is guarded against a write. -/
structure Guarded (repository : Repository) (callerType : CallerType) (write : DeviceWrite) :
    Prop where
  /-- Only a login creates a session. -/
  creates : ∀ stored next, write.outcome repository = .ok (.ok stored, next) →
    write.existing? callerType = none → write.binding.isLogin = true
  /-- A session remains its principal's, unless its current token has been presented. -/
  keeps : ∀ current, write.existing? callerType = some current →
    ∀ answer next, write.outcome repository = .ok (answer, next) →
      write.Presents current ∨ ∃ entry, next.live (write.sessionKey callerType) = some entry ∧
        BelongsTo entry.value current.principalId
  /-- A write that neither presents the token nor returns to the session is refused. -/
  refuses : ∀ current, write.existing? callerType = some current →
    ¬write.Presents current → ¬write.Returns current →
      ∃ e next, write.outcome repository = .ok (.error e, next) ∧ Spares write.before next ∧
        (write.before.failures.lookup "get" = none →
          e = .deviceSessionConflict write.binding.deviceId)
  /-- A login stores a token that is minted for it, and for no other nonce. -/
  mints : ∀ stored next, write.outcome repository = .ok (.ok stored, next) →
    write.binding.isLogin = true →
      ∃ bound, Repository.bind write.context.withoutToken callerType write.binding.deviceId =
          .ok bound ∧
        stored = bound.withToken (write.mintedToken repository bound) ∧
        stored.token? = some (write.mintedToken repository bound) ∧
        (∀ nonce payload, repository.cipher.issue nonce payload =
          write.mintedToken repository bound → nonce = write.moment.nonce) ∧
        next.live (write.sessionKey callerType) = some
          ⟨(Record.begin stored write.moment.unixMs callerType.ttl?).toBytes,
            callerType.ttl?.map (write.before.now + ·)⟩

/-- The session of a device is guarded against every write. -/
theorem guarded (htype : repository.callerType? write.context.callerType = some callerType)
    (hdevice : callerType.binding = .device) : Guarded repository callerType write := by
  have hstores {answer next} (h : write.outcome repository = .ok (answer, next)) :
      (∃ e, answer = .error e ∧ Spares write.before next) ∨
        ∃ bound, answer = .ok (repository.withCurrentToken bound write.moment) ∧
          Stores repository write callerType bound next := by
    obtain hfailed | ⟨callerType', bound, hanswer, stores⟩ := outcome_cases h
    · exact .inl hfailed
    · obtain rfl := Option.some.inj (htype.symm.trans stores.known)
      exact .inr ⟨bound, hanswer, stores⟩
  refine ⟨?creates, ?keeps, ?refuses, ?mints⟩
  case creates =>
    intro stored next h hnone
    obtain ⟨e, herror, -⟩ | ⟨bound, -, stores⟩ := hstores h
    · cases herror
    · exact stores.isLogin_of_none hnone
  case keeps =>
    intro current hcurrent answer next h
    obtain ⟨e, -, hspares⟩ | ⟨bound, -, stores⟩ := hstores h
    · obtain ⟨entry, hlive, hread⟩ := Option.bind_eq_some_iff.1 hcurrent
      exact .inr ⟨entry, (hspares.live _).trans hlive, .of_read hread⟩
    · obtain hpresents | hreturns := stores.mayReplace_of_some hcurrent
      · exact .inl hpresents
      · rw [← hreturns.1]
        exact .inr stores.belongsTo
  case refuses =>
    intro current hcurrent hpresents hreturns
    have hrefused : Repository.admission (write.existing? callerType) write.context write.binding =
        .error (.deviceSessionConflict write.binding.deviceId) := by
      rw [hcurrent, Repository.admission, if_neg]
      rw [mayReplace_iff]
      exact fun hmay => hmay.elim hpresents hreturns
    obtain ⟨mid, hspares, ⟨e, herror, hreason⟩ | ⟨hadmitted, -⟩⟩ :=
      Repository.perform_saveForDevice htype hdevice write.binding write.moment
    · refine ⟨e, mid, herror, hspares, fun hreads => ?_⟩
      exact (Except.error.inj (hrefused.symm.trans (hreason hreads))).symm
    · cases hrefused.symm.trans hadmitted
  case mints =>
    intro stored next h hlogin
    obtain ⟨e, herror, -⟩ | ⟨bound, hanswer, stores⟩ := hstores h
    · cases herror
    have hbinds := stores.binds
    rw [Repository.incoming, if_pos hlogin] at hbinds
    have hnone : bound.token? = none :=
      Repository.token?_of_bind hdevice write.context.token?_withoutToken hbinds
    have hminted : repository.withCurrentToken bound write.moment =
        bound.withToken (write.mintedToken repository bound) := by
      rw [Repository.withCurrentToken, hnone]
      rfl
    have hwritten := (stores.written.live _).trans (if_pos rfl)
    rw [hminted] at hanswer hwritten
    cases hanswer
    exact ⟨bound, hbinds, rfl, Context.token?_withToken _ _,
      fun _ _ hissue => repository.cipher.issue_inj_nonce hissue, hwritten⟩

end DeviceWrite

/-! ## Runs -/

/-- Devices write one after the other. In between time passes, and calls begin or cease to fail. -/
inductive DeviceRun (repository : Repository) (first : Observed) :
    List DeviceWrite → Observed → Prop
  | start : DeviceRun repository first [] first
  | wait {writes : List DeviceWrite} {store : Observed}
      (run : DeviceRun repository first writes store) (span : Duration)
      (failures : List (String × Store.StoreError)) :
      DeviceRun repository first writes { store with now := store.now + span, failures }
  | write {writes : List DeviceWrite} {write : DeviceWrite} {next : Observed}
      {answer : Except IdentityError Context} (run : DeviceRun repository first writes write.before)
      (ends : write.outcome repository = .ok (answer, next)) :
      DeviceRun repository first (write :: writes) next

/-- A write takes over the session under a key: it finds none and is a login, or it presents the
current token of the one that it finds. -/
structure DeviceWrite.TakesOver (repository : Repository) (write : DeviceWrite)
    (callerType : CallerType) (key : String) : Prop where
  known : repository.callerType? write.context.callerType = some callerType
  device : callerType.binding = .device
  key : write.sessionKey callerType = key
  creates : write.existing? callerType = none → write.binding.isLogin = true
  replaces : ∀ current, write.existing? callerType = some current → write.Presents current

namespace DeviceRun

variable {repository : Repository} {first last : Observed} {writes : List DeviceWrite}

/-- As time passes, contexts only cease to be known. -/
theorem known?_of_wait {store : Observed} {span : Duration}
    {failures : List (String × Store.StoreError)} {key : String} {found : Context}
    (h : known? { store with now := store.now + span, failures } key = some found) :
    known? store key = some found := by
  obtain ⟨entry, hlive, hread⟩ := Option.bind_eq_some_iff.1 h
  have hlater := store.memory.live_later (Nat.le_add_right store.now span) key
  obtain ⟨hlive, -⟩ := Option.filter_eq_some_iff.1 (hlater.symm.trans hlive)
  exact Option.bind_eq_some_iff.2 ⟨entry, hlive, hread⟩

/-- Whose session is known under a key in the end had one there from the start, or has made a write
that took it over. -/
theorem known?_cases (run : DeviceRun repository first writes last) {key : String}
    {found : Context} (h : known? last key = some found) :
    (∃ initial, known? first key = some initial ∧ initial.principalId = found.principalId) ∨
      ∃ write ∈ writes, write.context.principalId = found.principalId ∧
        ∃ callerType, write.TakesOver repository callerType key := by
  induction run generalizing found with
  | start => exact .inl ⟨found, h, rfl⟩
  | wait run span failures ih => exact ih (known?_of_wait h)
  | @write writes write next answer run ends ih =>
    have hearlier {current : Context} (hcurrent : known? write.before key = some current)
        (hsame : current.principalId = found.principalId) :
        (∃ initial, known? first key = some initial ∧
          initial.principalId = found.principalId) ∨
        ∃ earlier ∈ write :: writes, earlier.context.principalId = found.principalId ∧
          ∃ callerType, earlier.TakesOver repository callerType key := by
      obtain hinitial | ⟨earlier, hmem, htakes⟩ := ih hcurrent
      · rw [hsame] at hinitial
        exact .inl hinitial
      · rw [hsame] at htakes
        exact .inr ⟨earlier, List.mem_cons_of_mem _ hmem, htakes⟩
    obtain ⟨e, -, hspares⟩ | ⟨callerType, bound, -, stores⟩ := DeviceWrite.outcome_cases ends
    · exact hearlier ((hspares.known? key).symm.trans h) rfl
    by_cases hkey : write.sessionKey callerType = key
    · -- What is found is what has just been written.
      obtain ⟨entry, hlive, belongs⟩ := stores.belongsTo
      obtain ⟨entry', hlive', hread⟩ := Option.bind_eq_some_iff.1 h
      rw [← hkey, hlive] at hlive'
      cases hlive'
      obtain ⟨record, hrecord, rfl⟩ := storedContext?_eq_some.1 hread
      have hprincipal := belongs.read record hrecord
      by_cases hreplaces : ∀ current, write.existing? callerType = some current →
          write.Presents current
      · exact .inr ⟨write, List.mem_cons_self, hprincipal.symm, callerType, stores.known,
          stores.device, hkey, stores.isLogin_of_none, hreplaces⟩
      · simp only [not_forall] at hreplaces
        obtain ⟨current, hcurrent, hpresents⟩ := hreplaces
        have hreturns := (stores.mayReplace_of_some hcurrent).resolve_left hpresents
        rw [DeviceWrite.existing?, hkey] at hcurrent
        exact hearlier hcurrent (hreturns.1.symm.trans hprincipal.symm)
    · have hother : known? write.before key = some found := by
        rw [known?, stores.written.live, if_neg hkey] at h
        exact h
      exact hearlier hother rfl

/-- In any run of devices' writes the session of each device is guarded against every write, and
against any that comes next: only a login creates it, it remains its principal's unless its current
token is presented, whoever neither presents that nor returns to the session is refused and changes
nothing, and a login stores a token that is minted for it. So whose session is known in the end had
it from the start or has taken it over. -/
theorem guards_sessions (run : DeviceRun repository first writes last) {callerType : CallerType}
    (hdevice : callerType.binding = .device) :
    (∀ write, write ∈ writes ∨ write.before = last →
      repository.callerType? write.context.callerType = some callerType →
        write.Guarded repository callerType) ∧
    ∀ deviceId found, known? last (callerType.sessionKey deviceId) = some found →
      (∃ initial, known? first (callerType.sessionKey deviceId) = some initial ∧
        initial.principalId = found.principalId) ∨
      ∃ write ∈ writes, write.context.principalId = found.principalId ∧
        ∃ callerType', write.TakesOver repository callerType' (callerType.sessionKey deviceId) :=
  ⟨fun _ _ htype => DeviceWrite.guarded htype hdevice, fun _ _ h => run.known?_cases h⟩

/-- Another principal logs in on the device `x`, maybe with a guess at the token. -/
def stranger (before : Observed) (guess : Option String) : DeviceWrite :=
  ⟨before, Context.ofNames "v" "" "d", ⟨"x", none, guess, true⟩, ⟨0, Vector.replicate 12 0⟩⟩

/-- The guess is wrong: it opens under no cipher. -/
theorem minuteToken_ne_guess : minuteToken ≠ "guess" := by
  intro hsame
  have hopen := openWith_minute
  rw [hsame] at hopen
  cases hopen

/-- The stranger finds the session as long as it is live. -/
theorem existing?_stranger {store : Observed} (guess : Option String)
    (hlive : store.live "session:d:x" = some minuteEntry) :
    (stranger store guess).existing? minuteOnDevice = some minuteContext := by
  have hkey : minuteOnDevice.sessionKey "x" = "session:d:x" := by decide +kernel
  rw [DeviceWrite.existing?, DeviceWrite.sessionKey, stranger, hkey, known?, hlive,
    Option.bind_some]
  exact storedContext?_eq_some.2 ⟨minuteRecord, ofBytes_minute, rfl⟩

/-- The stranger is refused, guesses at the token, and is refused again: the session remains. -/
theorem guards_sessions_of_stranger : ∃ first last, first.live "session:d:x" = some minuteEntry ∧
    DeviceRun minutesOnly first [stranger first none] last ∧
      ∃ e next, (stranger last (some "guess")).outcome minutesOnly = .ok (.error e, next) ∧
        next.live "session:d:x" = some minuteEntry := by
  have htype : minutesOnly.callerType? "d" = some minuteOnDevice := rfl
  have hdevice : minuteOnDevice.binding = .device := rfl
  have hother (before : Observed) (guess : Option String) :
      ¬(stranger before guess).Returns minuteContext := by
    have hne : "v" ≠ "u" := by decide
    exact fun hreturns => hne hreturns.1
  obtain ⟨-, first, -, -, -, hlive⟩ := course_minute
  have hnone : ¬(stranger first none).Presents minuteContext := by
    rintro ⟨token, hpresented, -⟩
    cases hpresented
  obtain ⟨e, last, hrefused, hspares, -⟩ :=
    ((DeviceRun.start.guards_sessions hdevice).1 (stranger first none) (.inr rfl) htype).refuses
      minuteContext (existing?_stranger none hlive) hnone (hother _ _)
  have run : DeviceRun minutesOnly first [stranger first none] last := .write .start hrefused
  have hlast : last.live "session:d:x" = some minuteEntry := (hspares.live _).trans hlive
  have hguess : ¬(stranger last (some "guess")).Presents minuteContext := by
    rintro ⟨token, hpresented, hcurrent⟩
    rw [minuteContext, Context.token?_withToken] at hcurrent
    cases hpresented
    exact minuteToken_ne_guess (Option.some.inj hcurrent)
  obtain ⟨e', next, hrefused', hspares', -⟩ :=
    ((run.guards_sessions hdevice).1 (stranger last (some "guess")) (.inr rfl) htype).refuses
      minuteContext (existing?_stranger (some "guess") hlast) hguess (hother _ _)
  exact ⟨first, last, hlive, run, e', next, hrefused', (hspares'.live _).trans hlast⟩

end DeviceRun
end Turnstile.Session
