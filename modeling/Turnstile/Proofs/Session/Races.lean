import Turnstile.Proofs.Session.Contract
import Turnstile.Proofs.Store.Pool

/-!
# Operations on sessions side by side

A logout removes a session after it has read it and found its token there, and a device's session
is written after the one before it has been read and the rule for its replacement has been checked.
The reading and the writing are two calls, and the store has none that does both: what is removed
or replaced is what was checked, unless another operation has written there in between.
-/

namespace Turnstile.Session

open Store (Action Call Exchange Pool Program Served)

/-! ## Operations as programs -/

/-- An operation on sessions. -/
inductive Operation
  | save (context : Context) (bindingKey : String) (moment : Moment)
  | login (context : Context) (bindingKey : String) (moment : Moment)
  | saveForDevice (context : Context) (binding : DeviceBinding) (moment : Moment)
  | invalidate (callerType bindingKey : String)
  | logout (token : String)
  | authenticate (token : String)
  | resolve (token : String)
  | resolveRequest (credentials : Credentials)

/-- The calls that an operation makes, whatever it yields. -/
def Operation.program (repository : Repository) : Operation → Program Unit
  | .save context bindingKey moment => discard (repository.save context bindingKey moment)
  | .login context bindingKey moment => discard (repository.login context bindingKey moment)
  | .saveForDevice context binding moment =>
    discard (repository.saveForDevice context binding moment)
  | .invalidate callerType bindingKey => discard (repository.invalidate callerType bindingKey)
  | .logout token => discard (repository.logout token)
  | .authenticate token => discard (repository.authenticate token)
  | .resolve token => discard (repository.resolve token)
  | .resolveRequest credentials => discard (repository.resolveRequest credentials)
where
  discard {ε α : Type} (action : Action ε α) : Program Unit :=
    Program.bind action.run fun _ => .done ()

/-- An operation keeps to a rule if its action does. -/
theorem Operation.obeys_discard {ε α : Type} {action : Action ε α}
    {rule : List Exchange → Call → Prop} {goal : List Exchange → Except ε α → Prop}
    {told : List Exchange} (h : Action.Obeys rule goal action told) :
    (Operation.program.discard action).Obeys rule (fun _ _ => True) told := by
  rw [Operation.program.discard, Program.obeys_bind]
  exact h.imp fun _ _ _ => trivial

/-! ## What operations ask -/

/-- What a logout may ask: it removes only what it has read under the key of its token, with that
token in the record. -/
def LogoutRule (repository : Repository) (token : String) (told : List Exchange) : Call → Prop
  | .delete key =>
    (∃ claims callerType, repository.address token = .ok (claims, callerType, key)) ∧
      ∃ octets record, ⟨.get key, .ok (some octets)⟩ ∈ told ∧
        Record.ofBytes octets = .ok record ∧ record.context.token? = some token
  | .set .. => False
  | .get _ | .expire .. => True

/-- What a device's write may ask: it writes a session of the context's principal, after it has
read what was there and found that it may replace it. -/
def DeviceRule (context : Context) (binding : DeviceBinding) (told : List Exchange) : Call → Prop
  | .set key value _ =>
    (∃ record : Record, value = record.toBytes ∧
      record.context.principalId = context.principalId) ∧
      ∃ found, ⟨.get key, .ok found⟩ ∈ told ∧ ∀ octets ∈ found, ∀ record,
        Record.ofBytes octets = .ok record →
          Repository.mayReplace record.context context binding = true
  | .get _ => True
  | .delete _ | .expire .. => False

namespace Repository

variable (repository : Repository) {rule : List Exchange → Call → Prop} {told : List Exchange}

/-- Beginning the time of a session anew asks for nothing else, and what has been told remains. -/
theorem obeys_refresh (callerType : CallerType) (sessionKey : String)
    (hexpire : ∀ told ttl, rule told (.expire sessionKey ttl)) :
    Action.Obeys rule (fun after _ => told ⊆ after) (refresh callerType sessionKey) told := by
  unfold refresh
  cases callerType.sliding with
  | false => exact List.Subset.refl told
  | true =>
    cases callerType.ttl? with
    | none => exact List.Subset.refl told
    | some ttl =>
      refine ⟨hexpire told ttl, fun answer => ?_⟩
      cases answer with
      | error e => exact List.subset_cons_self _ told
      | ok renewed => exact List.subset_cons_self _ told

/-- What comes of an error is decided without any call. -/
theorem obeys_recover (token : String) (error : ResolveError) :
    Action.Obeys rule (fun _ _ => True) (recover token error) told := by
  cases error <;> trivial

/-- A session is located by reading it under the key of its token. -/
theorem obeys_locate (token : String) (hget : ∀ told key, rule told (.get key))
    (hexpire : ∀ told key ttl, rule told (.expire key ttl)) :
    Action.Obeys rule (fun told outcome => ∀ located, outcome = .ok located →
      ∃ claims callerType octets,
        repository.address token = .ok (claims, callerType, located.sessionKey) ∧
          ⟨.get located.sessionKey, .ok (some octets)⟩ ∈ told ∧
            verify token claims octets = .ok located.context)
      (repository.locate token) told := by
  unfold locate
  rw [Action.obeys_bind, Action.obeys_of]
  cases haddress : repository.address token with
  | error e => exact nofun
  | ok addressed =>
    obtain ⟨claims, callerType, sessionKey⟩ := addressed
    refine (Action.obeys_ask_bind ..).2 ⟨hget told sessionKey, fun found => ?_, fun e => nofun⟩
    cases found with
    | none => exact nofun
    | some octets =>
      refine (Action.obeys_bind _ _).2 ((Action.obeys_of _).2 ?_)
      cases hverify : verify token claims octets with
      | error e => exact nofun
      | ok context =>
        refine (Action.obeys_bind _ _).2 ?_
        refine (obeys_refresh callerType sessionKey fun told ttl => hexpire told _ ttl).imp
          fun after outcome hafter => ?_
        cases outcome with
        | error e => exact nofun
        | ok renewed =>
          rintro located ⟨⟩
          exact ⟨claims, callerType, octets, rfl, hafter List.mem_cons_self, hverify⟩

/-- A logout keeps to its rule. -/
theorem obeys_logout (token : String) :
    Action.Obeys (LogoutRule repository token) (fun _ _ => True) (repository.logout token)
      told := by
  unfold logout
  rw [Action.obeys_bind, Action.obeys_lift]
  refine (repository.obeys_locate token (fun _ _ => trivial) fun _ _ _ => trivial).imp
    fun told outcome hlocated => ?_
  cases outcome with
  | error e =>
    change Action.Obeys _ _ (recover token e >>= fun _ => pure false) told
    rw [Action.obeys_bind]
    refine (obeys_recover token e).imp fun told outcome _ => ?_
    cases outcome <;> trivial
  | ok located =>
    obtain ⟨claims, callerType, octets, haddress, hread, hverify⟩ := hlocated located rfl
    obtain ⟨⟨record, hrecord, hcontext⟩, hvouches⟩ := verify_eq_ok.1 hverify
    refine ⟨⟨⟨claims, callerType, haddress⟩, octets, record, hread, hrecord, ?_⟩,
      fun answer => ?_⟩
    · rw [hcontext, Context.token?_eq_some_iff.2 hvouches.current]
    · cases answer <;> trivial

/-- What is bound to a binding key is the same caller's. -/
theorem principalId_of_bind {context bound : Context} {callerType : CallerType}
    {bindingKey : String} (h : bind context callerType bindingKey = .ok bound) :
    bound.principalId = context.principalId := by
  simp only [bind] at h
  split at h
  · split at h
    · cases h
      rfl
    · cases h
  · split at h
    · cases h
      rfl
    · split at h
      · cases h
        rfl
      · cases h

/-- A token is of no account for whose session it is. -/
theorem principalId_withCurrentToken (context : Context) (moment : Moment) :
    (repository.withCurrentToken context moment).principalId = context.principalId := by
  unfold withCurrentToken
  split <;> rfl

/-- A save makes one call: it writes a session of the context's principal. -/
theorem obeys_save {context : Context} {bindingKey : String} {moment : Moment}
    (hset : ∀ callerType stored ttl, repository.settingsFor context.callerType = .ok callerType →
      stored.principalId = context.principalId →
        rule told (.set (callerType.sessionKey bindingKey)
          (Record.begin stored moment.unixMs ttl).toBytes ttl)) :
    Action.Obeys rule (fun _ _ => True) (repository.save context bindingKey moment) told := by
  unfold save
  rw [Action.obeys_bind, Action.obeys_of]
  cases htype : repository.settingsFor context.callerType with
  | error e => trivial
  | ok callerType =>
    change Action.Obeys rule _ (Action.of (bind context callerType bindingKey) >>= _) told
    rw [Action.obeys_bind, Action.obeys_of]
    cases hbind : bind context callerType bindingKey with
    | error e => trivial
    | ok bound =>
      refine ⟨hset callerType _ _ htype ?_, fun answer => ?_⟩
      · rw [principalId_withCurrentToken, principalId_of_bind hbind]
      · cases answer <;> trivial

/-- What is stored under a key is found by reading it. -/
theorem obeys_existing? (sessionKey : String) (hget : rule told (.get sessionKey)) :
    Action.Obeys rule (fun after outcome => ∀ existing, outcome = .ok existing →
      ∃ found, ⟨.get sessionKey, .ok found⟩ ∈ after ∧ ∀ octets ∈ found, ∀ record,
        Record.ofBytes octets = .ok record → existing = some record.context)
      (existing? sessionKey) told := by
  refine (Action.obeys_ask_bind ..).2 ⟨hget, fun found => ?_, fun e => nofun⟩
  cases found with
  | none =>
    rintro existing ⟨⟩
    exact ⟨none, List.mem_cons_self, nofun⟩
  | some octets =>
    dsimp only
    cases hrecord : Record.ofBytes octets with
    | error fault =>
      rintro existing ⟨⟩
      refine ⟨some octets, List.mem_cons_self, ?_⟩
      rintro _ ⟨⟩ record h
      cases hrecord.symm.trans h
    | ok record =>
      rintro existing ⟨⟩
      refine ⟨some octets, List.mem_cons_self, ?_⟩
      rintro _ ⟨⟩ record' h
      cases hrecord.symm.trans h
      rfl

/-- Whether a device's session may be written is decided without any call. -/
theorem obeys_admitDeviceWrite (existing : Option Context) (incoming : Context)
    (binding : DeviceBinding) :
    Action.Obeys rule (fun after outcome => after = told ∧ (outcome = .ok () →
      ∀ stored ∈ existing, mayReplace stored incoming binding = true))
      (admitDeviceWrite existing incoming binding) told := by
  cases existing with
  | none =>
    unfold admitDeviceWrite
    cases binding.isLogin <;> exact ⟨rfl, fun _ => nofun⟩
  | some stored =>
    simp only [admitDeviceWrite]
    split
    · refine ⟨rfl, ?_⟩
      rintro - _ ⟨⟩
      assumption
    · exact ⟨rfl, nofun⟩

/-- Whoever may replace the session of another caller presents its token. -/
theorem presents_of_mayReplace {stored incoming : Context} {binding : DeviceBinding}
    (h : mayReplace stored incoming binding = true)
    (hother : stored.principalId ≠ incoming.principalId) :
    ∃ token, binding.presentedToken = some token ∧ stored.token? = some token := by
  have hprincipal : (incoming.principalId == stored.principalId) = false :=
    beq_false_of_ne (Ne.symm hother)
  rw [mayReplace, hprincipal, Bool.false_and, Bool.or_false, Option.any_eq_true] at h
  obtain ⟨token, hpresented, hcurrent⟩ := h
  exact ⟨token, hpresented, isCurrentToken_eq_true.1 hcurrent⟩

/-- A device's write keeps to its rule. -/
theorem obeys_saveForDevice (context : Context) (binding : DeviceBinding) (moment : Moment) :
    Action.Obeys (DeviceRule context binding) (fun _ _ => True)
      (repository.saveForDevice context binding moment) told := by
  unfold saveForDevice
  rw [Action.obeys_bind, Action.obeys_of]
  cases htype : repository.settingsFor context.callerType with
  | error e => trivial
  | ok callerType =>
    dsimp only
    split
    · trivial
    rw [Action.obeys_bind]
    refine (obeys_existing? (callerType.sessionKey binding.deviceId) trivial).imp
      fun read outcome hread => ?_
    cases outcome with
    | error e => trivial
    | ok existing =>
      obtain ⟨found, hfound, hexisting⟩ := hread existing rfl
      refine (Action.obeys_bind _ _).2 ?_
      refine (obeys_admitDeviceWrite existing context binding).imp ?_
      rintro _ outcome ⟨rfl, hmay⟩
      cases outcome with
      | error e => trivial
      | ok admitted =>
        generalize hincoming : (if binding.isLogin = true then context.withoutToken else context) =
          incoming
        have hsame : incoming.callerType = context.callerType ∧
            incoming.principalId = context.principalId := by
          rw [← hincoming]
          split <;> exact ⟨rfl, rfl⟩
        refine repository.obeys_save fun callerType' stored ttl htype' hprincipal => ?_
        rw [hsame.1, htype] at htype'
        obtain rfl := Except.ok.inj htype'
        refine ⟨⟨_, rfl, hprincipal.trans hsame.2⟩, found, hfound, ?_⟩
        intro octets hoctets record hrecord
        exact hmay rfl _ (hexisting octets hoctets record hrecord)

end Repository

/-! ## What is checked and what is done -/

section Pools

variable {ι : Type} [DecidableEq ι] {repository : Repository} {operations : ι → Operation}
  {pool : Pool ι}

/-- Every call of a logout is one that its rule permits. -/
theorem logoutRule_of_served
    (h : Pool.Reachable (fun i => (operations i).program repository) pool)
    {later earlier : List (Served ι)} {x : Served ι}
    (hhistory : pool.history = later ++ x :: earlier) {token : String}
    (hoperation : operations x.caller = .logout token) :
    LogoutRule repository token (Pool.told earlier x.caller) x.exchange.call := by
  have hobeys : ((operations x.caller).program repository).Obeys (LogoutRule repository token)
      (fun _ _ => True) [] := by
    rw [hoperation]
    exact Operation.obeys_discard (repository.obeys_logout token)
  exact h.permitted hhistory hobeys

/-- Every call of a device's write is one that its rule permits. -/
theorem deviceRule_of_served
    (h : Pool.Reachable (fun i => (operations i).program repository) pool)
    {later earlier : List (Served ι)} {x : Served ι}
    (hhistory : pool.history = later ++ x :: earlier) {context : Context}
    {binding : DeviceBinding} {moment : Moment}
    (hoperation : operations x.caller = .saveForDevice context binding moment) :
    DeviceRule context binding (Pool.told earlier x.caller) x.exchange.call := by
  have hobeys : ((operations x.caller).program repository).Obeys (DeviceRule context binding)
      (fun _ _ => True) [] := by
    rw [hoperation]
    exact Operation.obeys_discard (repository.obeys_saveForDevice context binding moment)
  exact h.permitted hhistory hobeys

/-- A logout removes the session that it has read, with its token in it, under the key of the
token, unless another operation has written there since. -/
theorem logout_removes_what_it_read
    (h : Pool.Reachable (fun i => (operations i).program repository) pool)
    {later earlier : List (Served ι)} {x : Served ι}
    (hhistory : pool.history = later ++ x :: earlier) {token key : String}
    (hoperation : operations x.caller = .logout token)
    (hcall : x.exchange.call = .delete key) :
    (∃ claims callerType, repository.address token = .ok (claims, callerType, key)) ∧
      ∃ between check before octets record, earlier = between ++ check :: before ∧
        check.caller = x.caller ∧ check.exchange = ⟨.get key, .ok (some octets)⟩ ∧
        Record.ofBytes octets = .ok record ∧ record.context.token? = some token ∧
        ∀ entry, x.live key = some entry →
          entry.value = octets ∨ ∃ y ∈ between, y.Writes key := by
  have hrule := logoutRule_of_served h hhistory hoperation
  rw [hcall] at hrule
  obtain ⟨haddress, octets, record, hread, hrecord, hcurrent⟩ := hrule
  obtain ⟨between, check, before, rfl, hcaller, hcheck⟩ := Pool.exists_of_mem_told hread
  refine ⟨haddress, between, check, before, octets, record, rfl, hcaller, hcheck, hrecord, hcurrent,
    fun entry hlive => ?_⟩
  by_cases hwritten : ∃ y ∈ between, y.Writes key
  · exact .inr hwritten
  · have hvalue := h.live_of_read hhistory hcheck (fun y hy hy' => hwritten ⟨y, hy, hy'⟩) hlive
    exact .inl (Option.some.inj hvalue).symm

/-- A logout reads the session of its token; an accepted one that slides begins its time anew, and
is removed. -/
theorem calls_of_logout {token : String} {claims : Claims} {callerType : CallerType} {key : String}
    {octets : Bytes} {context : Context} {ttl : Duration}
    (haddress : repository.address token = .ok (claims, callerType, key))
    (hverify : Repository.verify token claims octets = .ok context)
    (hslides : callerType.sliding = true) (httl : callerType.ttl? = some ttl) :
    ∃ read, Operation.program repository (.logout token) = .ask (.get key) read ∧
      ∃ renewed, read (.ok (some octets)) = .ask (.expire key ttl) renewed ∧
        ∃ last, renewed (.ok true) = .ask (.delete key) last := by
  rw [Operation.program, Repository.logout, Repository.locate, haddress]
  refine ⟨_, rfl, ?_⟩
  -- What follows the reading depends on whether the record is accepted.
  simp only [ExceptT.bindCont, ExceptT.bind, Action.of, bind, ExceptT.mk, Except.mapError,
    Program.bind, hverify, Repository.refresh, hslides, httl]
  exact ⟨_, by rfl, _, by rfl⟩

/-- Three operations on one session: it is saved, logged out, and saved with another token. -/
def crossing : Fin 3 → Operation
  | 0 => .save lastingContext "u" ⟨0, Vector.replicate 12 0⟩
  | 1 => .logout lastingToken
  | 2 => .save ((Context.ofNames "u" "" "c").withToken "newer") "u" ⟨0, Vector.replicate 12 0⟩

/-- The record of the second save. -/
def newerRecord : Record := .begin ((Context.ofNames "u" "" "c").withToken "newer") 0 lasting.ttl?

/-- The record of the second save is read back. -/
theorem ofBytes_newer : Record.ofBytes newerRecord.toBytes = .ok newerRecord :=
  Record.ofBytes_toBytes_of_texts fun e he => ⟨"newer", by rw [List.mem_singleton.1 he]⟩

/-- The token of the second save is not that of the first: it opens under no cipher. -/
theorem lastingToken_ne_newer : lastingToken ≠ "newer" := by
  intro hsame
  have hopen := openWith_lasting
  rw [hsame] at hopen
  cases hopen

/-- Octets that are kept in a lasting session since the beginning of time. -/
def kept (octets : Bytes) : Store.Entry :=
  ⟨octets, some (Duration.ofSecs 9223372035854775807)⟩

theorem value_kept (octets : Bytes) : (kept octets).value = octets := rfl

/-- The store after a save. -/
def keeping (memory : Store.Memory) (octets : Bytes) : Store.Memory :=
  ⟨memory.entries.insert "session:c:u" (kept octets)⟩

section Keeping

variable (memory : Store.Memory) (octets : Bytes)

/-- What is kept is live. -/
theorem live_keeping : (keeping memory octets).live 0 "session:c:u" = some (kept octets) := by
  have hlive : (kept octets).isLive 0 = true :=
    decide_eq_true (by decide : 0 < Duration.ofSecs 9223372035854775807)
  rw [keeping, Store.Memory.live_insert, if_pos rfl, Option.filter_some, if_pos hlive]

/-- A save keeps its octets. -/
theorem serve_set : memory.serve 0 (.set "session:c:u" octets lasting.ttl?) =
    .ok ((), keeping memory octets) := by
  have hset : memory.set 0 "session:c:u" octets lasting.ttl? = .ok (keeping memory octets) :=
    (Store.Memory.set_eq_ok memory 0).2 ⟨by decide, rfl⟩
  rw [Store.Memory.serve, hset]
  rfl

/-- A reading finds what is kept. -/
theorem serve_get : (keeping memory octets).serve 0 (.get "session:c:u") =
    .ok (some octets, keeping memory octets) :=
  congrArg Except.ok (Store.Memory.get_of_live (live_keeping memory octets))

/-- At the very instant of a save, beginning the time of the session anew changes nothing. -/
theorem serve_expire : (keeping memory octets).serve 0
    (.expire "session:c:u" (Duration.ofSecs 9223372035854775807)) =
      .ok (true, keeping memory octets) := by
  refine (Store.Memory.expire_of_live (live_keeping memory octets)).2 ⟨by decide, rfl, ?_⟩
  rw [Nat.zero_add]
  exact congrArg Store.Memory.mk
    (Table.insert_eq_self (Table.get?_insert_self _ _ (kept octets))).symm

end Keeping

/-- The second save may come between the logout's reading and its removal, which then removes the
record with the other token. -/
theorem exists_crossed : ∃ pool x,
    Pool.Reachable (fun i => (crossing i).program lastingOnly) pool ∧ x ∈ pool.history ∧
      x.caller = 1 ∧ x.exchange.call = .delete "session:c:u" ∧
      ∃ entry, x.live "session:c:u" = some entry ∧ entry.value = newerRecord.toBytes := by
  have hsave : ∃ next, (crossing 0).program lastingOnly =
      .ask (.set "session:c:u" lastingRecord.toBytes lasting.ttl?) next := ⟨_, rfl⟩
  have hanew : ∃ next, (crossing 2).program lastingOnly =
      .ask (.set "session:c:u" newerRecord.toBytes lasting.ttl?) next := ⟨_, rfl⟩
  have haddress : lastingOnly.address lastingToken = .ok (lastingClaims, lasting, "session:c:u") :=
    address_lasting
  have hverify : Repository.verify lastingToken lastingClaims lastingRecord.toBytes =
      .ok lastingContext :=
    Repository.verify_eq_ok.2 ⟨⟨lastingRecord, ofBytes_lasting, rfl⟩, vouches_lasting⟩
  obtain ⟨_, hsave⟩ := hsave
  obtain ⟨_, hanew⟩ := hanew
  obtain ⟨_, hread, _, hrenewed, _, hremoved⟩ := calls_of_logout haddress hverify rfl rfl
  have start : Pool.Reachable (fun i => (crossing i).program lastingOnly) _ := .start 0 .empty
  have saved := start.serve 0 hsave (serve_set _ _)
  have found := saved.serve 1 hread (serve_get _ _)
  have prolonged := found.serve 1 hrenewed (serve_expire _ _)
  have replaced := prolonged.serve 2 hanew (serve_set _ _)
  have removed := replaced.serve 1 hremoved rfl
  exact ⟨_, _, removed, List.mem_cons_self, rfl, rfl, _, live_keeping _ _, value_kept _⟩

/-- The logout of a session that is saved anew in the meantime: its removal comes after a write that
came after its reading. -/
theorem logout_removes_what_it_read_of_crossed : ∃ pool later x between check before,
    Pool.Reachable (fun i => (crossing i).program lastingOnly) pool ∧
      pool.history = later ++ x :: (between ++ check :: before) ∧
      x.exchange.call = .delete "session:c:u" ∧ check.caller = x.caller ∧
      check.exchange.call = .get "session:c:u" ∧ ∃ y ∈ between, y.Writes "session:c:u" := by
  obtain ⟨pool, x, reachable, hx, hcaller, hcall, entry, hlive, hentry⟩ := exists_crossed
  obtain ⟨later, earlier, hhistory⟩ := List.append_of_mem hx
  have hoperation : crossing x.caller = .logout lastingToken := by rw [hcaller]; rfl
  obtain ⟨-, between, check, before, octets, record, rfl, hsame, hcheck, hrecord, hcurrent,
    hvalue⟩ := logout_removes_what_it_read reachable hhistory hoperation hcall
  refine ⟨pool, later, x, between, check, before, reachable, hhistory, hcall, hsame,
    by rw [hcheck], ?_⟩
  refine (hvalue entry hlive).resolve_left fun he => ?_
  -- Else the record that is removed would be the one that was read, with the logout's token in it.
  rw [← he, hentry, ofBytes_newer] at hrecord
  cases hrecord
  exact lastingToken_ne_newer (Option.some.inj hcurrent).symm

/-- A logout can remove a session whose current token is not the one that it was given. -/
theorem logout_removes_newer : ∃ pool x entry record,
    Pool.Reachable (fun i => (crossing i).program lastingOnly) pool ∧ x ∈ pool.history ∧
      crossing x.caller = .logout lastingToken ∧ x.exchange.call = .delete "session:c:u" ∧
      x.live "session:c:u" = some entry ∧ Record.ofBytes entry.value = .ok record ∧
      record.context.token? ≠ some lastingToken := by
  obtain ⟨pool, x, reachable, hx, hcaller, hcall, entry, hlive, hentry⟩ := exists_crossed
  refine ⟨pool, x, entry, newerRecord, reachable, hx, by rw [hcaller]; rfl, hcall, hlive,
    by rw [hentry, ofBytes_newer], ?_⟩
  intro hcurrent
  exact lastingToken_ne_newer (Option.some.inj hcurrent).symm

/-- A device's write that replaces the session of another caller presents the token of that
session, unless another operation has written there since the write's own check. -/
theorem saveForDevice_replaces_what_it_read
    (h : Pool.Reachable (fun i => (operations i).program repository) pool)
    {later earlier : List (Served ι)} {x : Served ι}
    (hhistory : pool.history = later ++ x :: earlier) {context : Context}
    {binding : DeviceBinding} {moment : Moment}
    (hoperation : operations x.caller = .saveForDevice context binding moment)
    {key : String} {value : Bytes} {ttl : Option Duration}
    (hcall : x.exchange.call = .set key value ttl) :
    (∃ written : Record, value = written.toBytes ∧
      written.context.principalId = context.principalId) ∧
      ∃ between check before, earlier = between ++ check :: before ∧ check.caller = x.caller ∧
        check.exchange.call = .get key ∧
        ∀ entry record, x.live key = some entry → Record.ofBytes entry.value = .ok record →
          record.context.principalId = context.principalId ∨
          (∃ token, binding.presentedToken = some token ∧
            record.context.token? = some token) ∨
          ∃ y ∈ between, y.Writes key := by
  have hrule := deviceRule_of_served h hhistory hoperation
  rw [hcall] at hrule
  obtain ⟨hwritten, found, hread, hmay⟩ := hrule
  obtain ⟨between, check, before, rfl, hcaller, hcheck⟩ := Pool.exists_of_mem_told hread
  refine ⟨hwritten, between, check, before, rfl, hcaller, by rw [hcheck],
    fun entry record hlive hrecord => ?_⟩
  by_cases hwritten : ∃ y ∈ between, y.Writes key
  · exact .inr (.inr hwritten)
  · have hvalue := h.live_of_read hhistory hcheck (fun y hy hy' => hwritten ⟨y, hy, hy'⟩) hlive
    have hreplace := hmay entry.value hvalue record hrecord
    by_cases hsame : record.context.principalId = context.principalId
    · exact .inl hsame
    · exact .inr (.inl (Repository.presents_of_mayReplace hreplace hsame))

/-- Two callers log in on one device. -/
def arrivals (second : Bool) : Operation :=
  .saveForDevice (Context.ofNames (if second then "b" else "a") "" "d") ⟨"x", none, none, true⟩
    ⟨0, Vector.replicate 12 0⟩

/-- The repository of a device on which two callers log in. -/
def deviceOnly : Repository :=
  .ofCallerTypes .ofLetter [.ofName "d" .device]

/-- The first caller on the device, with the token of the session. -/
def arrivedContext : Context :=
  deviceOnly.withCurrentToken ((Context.ofNames "a" "" "d").withDevice "x")
    ⟨0, Vector.replicate 12 0⟩

/-- The record of the first login is read back. -/
theorem ofBytes_arrived : Record.ofBytes (Record.begin arrivedContext 0 none).toBytes =
    .ok (Record.begin arrivedContext 0 none) := by
  refine Record.ofBytes_toBytes_of_texts fun e he => ?_
  obtain ⟨token, hentries⟩ : ∃ token, arrivedContext.metadata.entries =
      [("device_id", .string "x"), ("token", .string token)] := ⟨_, rfl⟩
  change e ∈ arrivedContext.metadata.entries at he
  rw [hentries, List.mem_cons, List.mem_singleton] at he
  obtain rfl | rfl := he
  · exact ⟨"x", rfl⟩
  · exact ⟨token, rfl⟩

/-- Both logins may look for a session before either of them writes one; the second write then
replaces the session of the first caller. -/
theorem exists_arrived : ∃ pool x,
    Pool.Reachable (fun i => (arrivals i).program deviceOnly) pool ∧ x ∈ pool.history ∧
      x.caller = true ∧ x.Writes "session:d:x" ∧
      ∃ entry, x.live "session:d:x" = some entry ∧
        entry.value = (Record.begin arrivedContext 0 none).toBytes := by
  have hfirst : ∃ read, (arrivals false).program deviceOnly = .ask (.get "session:d:x") read ∧
      ∃ next, read (.ok none) =
        .ask (.set "session:d:x" (Record.begin arrivedContext 0 none).toBytes none) next :=
    ⟨_, rfl, _, rfl⟩
  have hsecond : ∃ read, (arrivals true).program deviceOnly = .ask (.get "session:d:x") read ∧
      ∃ value next, read (.ok none) = .ask (.set "session:d:x" value none) next :=
    ⟨_, rfl, _, _, rfl⟩
  obtain ⟨_, hread, _, hwritten⟩ := hfirst
  obtain ⟨_, hread', value, _, hwritten'⟩ := hsecond
  have hset (memory : Store.Memory) (octets : Bytes) :
      memory.serve 0 (.set "session:d:x" octets none) =
        .ok ((), ⟨memory.entries.insert "session:d:x" ⟨octets, none⟩⟩) := rfl
  have hlive (memory : Store.Memory) (octets : Bytes) : ∃ entry,
      (Store.Memory.mk (memory.entries.insert "session:d:x" ⟨octets, none⟩)).live 0 "session:d:x" =
        some entry ∧ entry.value = octets :=
    ⟨⟨octets, none⟩, by rw [Store.Memory.live_insert, if_pos rfl]; rfl, rfl⟩
  have start : Pool.Reachable (fun i => (arrivals i).program deviceOnly) _ := .start 0 .empty
  have looked := start.serve false hread rfl
  have looked' := looked.serve true hread' rfl
  have written := looked'.serve false hwritten (hset _ _)
  have replaced := written.serve true hwritten' (hset _ _)
  exact ⟨_, _, replaced, List.mem_cons_self, rfl, ⟨value, none, rfl⟩, hlive _ _⟩

/-- Two first logins on one device: the second write comes after a write that came after its own
reading. -/
theorem saveForDevice_replaces_what_it_read_of_arrived : ∃ pool later x between check before,
    Pool.Reachable (fun i => (arrivals i).program deviceOnly) pool ∧
      pool.history = later ++ x :: (between ++ check :: before) ∧ x.Writes "session:d:x" ∧
      check.caller = x.caller ∧ check.exchange.call = .get "session:d:x" ∧
      ∃ y ∈ between, y.Writes "session:d:x" := by
  obtain ⟨pool, x, reachable, hx, hcaller, ⟨value, ttl, hcall⟩, entry, hlive, hentry⟩ :=
    exists_arrived
  obtain ⟨later, earlier, hhistory⟩ := List.append_of_mem hx
  have hoperation : arrivals x.caller = .saveForDevice (Context.ofNames "b" "" "d")
      ⟨"x", none, none, true⟩ ⟨0, Vector.replicate 12 0⟩ := by rw [hcaller]; rfl
  obtain ⟨-, between, check, before, rfl, hsame, hcheck, hreplaces⟩ :=
    saveForDevice_replaces_what_it_read reachable hhistory hoperation hcall
  refine ⟨pool, later, x, between, check, before, reachable, hhistory, ⟨value, ttl, hcall⟩, hsame,
    hcheck, ?_⟩
  obtain hown | ⟨token, hpresented, -⟩ | hwritten :=
    hreplaces entry _ hlive (by rw [hentry, ofBytes_arrived])
  · have hother : (Record.begin arrivedContext 0 none).context.principalId = "a" := rfl
    exact absurd (hother.symm.trans hown) (by decide)
  · cases hpresented
  · exact hwritten

/-- A device's write can replace the live session of another caller without any token. -/
theorem first_logins_overwrite : ∃ pool x entry record written context binding moment ttl,
    Pool.Reachable (fun i => (arrivals i).program deviceOnly) pool ∧ x ∈ pool.history ∧
      arrivals x.caller = .saveForDevice context binding moment ∧
      x.exchange.call = .set "session:d:x" (Record.toBytes written) ttl ∧
      x.live "session:d:x" = some entry ∧ Record.ofBytes entry.value = .ok record ∧
      record.context.principalId ≠ written.context.principalId ∧
      binding.presentedToken = none := by
  obtain ⟨pool, x, reachable, hx, hcaller, ⟨value, ttl, hcall⟩, entry, hlive, hentry⟩ :=
    exists_arrived
  obtain ⟨later, earlier, hhistory⟩ := List.append_of_mem hx
  have hoperation : arrivals x.caller = .saveForDevice (Context.ofNames "b" "" "d")
      ⟨"x", none, none, true⟩ ⟨0, Vector.replicate 12 0⟩ := by rw [hcaller]; rfl
  have hrule := deviceRule_of_served reachable hhistory hoperation
  rw [hcall] at hrule
  obtain ⟨⟨written, hvalue, hwritten⟩, -⟩ := hrule
  have hother : (Record.begin arrivedContext 0 none).context.principalId = "a" := rfl
  refine ⟨pool, x, entry, _, written, _, _, _, ttl, reachable, hx, hoperation, hvalue ▸ hcall,
    hlive, by rw [hentry, ofBytes_arrived], ?_, rfl⟩
  rw [hother, hwritten]
  decide

end Pools
end Turnstile.Session
