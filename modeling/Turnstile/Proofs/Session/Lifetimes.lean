import Turnstile.Cli
import Turnstile.Proofs.Session.Traces
import Turnstile.Proofs.Token.Sealing
import Turnstile.Redis.Peer

/-!
# Lifetimes of sessions

The seconds that a session lasts go four ways: they are added to the clock of a store in memory and
to the Unix milliseconds of the record, and a server is sent them with a write and with a refresh.
Each way has its own bound, up to which it carries any number of seconds and beyond which it stops
the program or makes another number of them.
-/

namespace Turnstile

/-- A number that is not too small for 64 bits with a sign is kept by them exactly if it is not too
great either. -/
theorem bmod_eq_self_iff {n : Int} (hlower : -0x8000000000000000 ≤ n) :
    n.bmod 0x10000000000000000 = n ↔ n < 0x8000000000000000 := by
  constructor
  · intro hself
    have hlt := Int.bmod_lt (x := n) (m := 0x10000000000000000) (by decide)
    omega
  · intro hupper
    exact Int.bmod_eq_of_le (by omega) (by omega)

/-! ## Over a server -/

namespace Redis

open Store (Action Call StoreError)

/-- A number of milliseconds reaches the server unchanged exactly if it fits 64 bits. -/
theorem wireMillis_eq_iff {span : Duration} (h : 1 ≤ span.toMillis) :
    wireMillis span = span.toMillis ↔ span.toMillis < UInt64.size := by
  constructor
  · intro hsame
    have hlt := Nat.mod_lt span.toMillis (show 0 < UInt64.size by decide)
    have hone : 1 < UInt64.size := by decide
    unfold wireMillis at hsame
    omega
  · exact wireMillis_eq h

/-- The signed number is the right one exactly if it fits 63 bits. -/
theorem bmod_wireMillis_eq_iff {span : Duration} (h : 1 ≤ span.toMillis) :
    Int.bmod (wireMillis span) UInt64.size = span.toMillis ↔
      span.toMillis < 0x8000000000000000 := by
  have hsize : UInt64.size = 0x10000000000000000 := rfl
  constructor
  · intro hsame
    have hlt := Int.bmod_lt (x := wireMillis span) (m := UInt64.size) (by decide)
    rw [hsame] at hlt
    omega
  · intro hfits
    rw [wireMillis_eq h (by omega)]
    exact (bmod_eq_self_iff (by omega)).2 (by omega)

namespace Peer

variable {ε α β : Type} {peer : Peer}

/-- Performs an operation on sessions over a server that answers from a list. -/
def perform (action : Action ε α) : StateM Peer (Except ε α) :=
  Cli.perform (m := StateM Peer) (fun conversation peer => peer.hold conversation) action

/-- What comes after an action is performed over the server that it leaves, unless it fails. -/
theorem perform_bind (action : Action ε α) (next : α → Action ε β) :
    perform (action >>= next) peer =
      match perform action peer with
      | (.ok x, after) => perform (next x) after
      | (.error e, after) => (.error e, after) := by
  change (Store.Program.bind action.run (ExceptT.bindCont next)).run (m := StateM Peer) _ _ peer = _
  rw [Store.Program.run_bind]
  change (ExceptT.bindCont next (perform action peer).1).run (m := StateM Peer) _ _
    (perform action peer).2 = _
  obtain ⟨_ | x, after⟩ := perform action peer <;> rfl

theorem perform_of (r : Except ε α) : perform (Action.of r) peer = (r, peer) := rfl

/-- A command that is answered has been seen. -/
theorem seen_answer (command : Command) :
    (peer.answer command).2.seen = command :: peer.seen := by
  unfold answer
  dsimp only
  split <;> rfl

/-- A call over a server within reach is one command. -/
theorem seen_converse (h : peer.outOfReach = none) (call : Call) :
    (peer.hold (SessionStore.converse call)).2.seen =
      SessionStore.command call :: peer.seen := by
  rw [hold, h]
  exact seen_answer _

theorem seen_ask (h : peer.outOfReach = none) (call : Call) (wrap : StoreError → ε) :
    (perform (Action.ask call wrap) peer).2.seen = SessionStore.command call :: peer.seen :=
  seen_converse h call

theorem seen_attempt (h : peer.outOfReach = none) (call : Call) :
    (perform (Action.attempt call : Action ε _) peer).2.seen =
      SessionStore.command call :: peer.seen :=
  seen_converse h call

end Peer
end Redis

namespace Session.Repository

open Redis
open Store (Observed)

variable {repository : Repository} {context bound : Context} {callerType : CallerType}
  {bindingKey : String}

/-- The record that a save stores of a context that has been bound. -/
def sessionRecord (repository : Repository) (bound : Context) (callerType : CallerType)
    (moment : Moment) : Record :=
  .begin (repository.withCurrentToken bound moment) moment.unixMs callerType.ttl?

section Saves

variable (htype : repository.callerType? context.callerType = some callerType)
  (hbind : bind context callerType bindingKey = .ok bound) (moment : Moment)

include htype hbind

/-- A save whose write the store does not fail comes to an end if the instant of the expiry can be
represented, and stops the program if it cannot. -/
theorem perform_save_of_ttl {ttl : Duration} (httl : callerType.ttl? = some ttl) {store : Observed}
    (h : store.failures.lookup "set" = none) :
    (store.now + ttl < Instant.limit → ∃ next,
      Observed.perform (repository.save context bindingKey moment) store =
        .ok (.ok (repository.withCurrentToken bound moment), next)) ∧
    (Instant.limit ≤ store.now + ttl →
      Observed.perform (repository.save context bindingKey moment) store =
        .error .clockOverflow) := by
  rw [save, Observed.perform_bind, Observed.perform_of, settingsFor_eq_ok.2 htype]
  dsimp only
  rw [Observed.perform_bind, Observed.perform_of, hbind]
  dsimp only
  rw [httl, Observed.perform_bind]
  -- What is written does not matter here, and must not be evaluated.
  generalize Record.toBytes _ = value
  have hserve := @Observed.serve_of_serves store
    (.set (callerType.sessionKey bindingKey) value (some ttl)) h
  rw [Store.Memory.serve] at hserve
  constructor
  · intro hlimit
    have hfits : ∀ span ∈ some ttl, store.now + span < Instant.limit := by
      rintro span ⟨⟩
      exact hlimit
    rw [(store.memory.set_eq_ok store.now).2 ⟨hfits, rfl⟩] at hserve
    rw [Observed.perform_ask_of_serve hserve]
    exact ⟨_, rfl⟩
  · intro hover
    rw [store.memory.set_of_overflow store.now hover] at hserve
    rw [Observed.perform_ask_of_crash hserve]

/-- A save over a server sends one command. -/
theorem seen_save {peer : Peer} (h : peer.outOfReach = none) :
    (Peer.perform (repository.save context bindingKey moment) peer).2.seen =
      SessionStore.command (.set (callerType.sessionKey bindingKey)
        (repository.sessionRecord bound callerType moment).toBytes callerType.ttl?) :: peer.seen := by
  have hset := Peer.seen_ask h (.set (callerType.sessionKey bindingKey)
    (repository.sessionRecord bound callerType moment).toBytes callerType.ttl?)
    IdentityError.ofStore
  unfold sessionRecord at hset ⊢
  rw [save, Peer.perform_bind, Peer.perform_of, settingsFor_eq_ok.2 htype]
  dsimp only
  rw [Peer.perform_bind, Peer.perform_of, hbind]
  dsimp only
  rw [Peer.perform_bind]
  generalize Peer.perform _ peer = outcome at hset ⊢
  obtain ⟨_ | _, after⟩ := outcome
  · exact hset
  · exact hset

end Saves

/-- A refresh of a sliding session over a server sends one command. -/
theorem seen_refresh {peer : Peer} (h : peer.outOfReach = none)
    (hslides : callerType.sliding = true) {ttl : Duration} (httl : callerType.ttl? = some ttl)
    (sessionKey : String) :
    (Peer.perform (refresh callerType sessionKey) peer).2.seen =
      SessionStore.command (.expire sessionKey ttl) :: peer.seen := by
  have hexpire := Peer.seen_attempt (ε := ResolveError) h (.expire sessionKey ttl)
  simp only [refresh, hslides, if_true, httl, Peer.perform_bind]
  generalize Peer.perform _ peer = outcome at hexpire ⊢
  obtain ⟨_ | _ | _, after⟩ := outcome
  · exact hexpire
  · exact hexpire
  · exact hexpire

/-- Sessions of a caller type last as many seconds as it says, and without end for none. -/
theorem ttl?_of_ttlSecs {n : UInt64} (hsecs : callerType.ttlSecs = some n) (hn : n ≠ 0) :
    callerType.ttl? = some (Duration.ofSecs n.toNat) := by
  rw [CallerType.ttl?, CallerType.ttlSecs?, hsecs]
  dsimp only
  rw [if_neg hn]
  rfl

/-- A record says the right end of its session exactly if that fits 64 bits with a sign. -/
theorem expiresAtMs_begin (context : Context) (nowMs : Int64) (ttl : Duration) :
    (Record.begin context nowMs (some ttl)).expiresAtMs.map Int64.toInt =
        some (nowMs.toInt + ttl.toMillis) ↔
      nowMs.toInt + ttl.toMillis < 0x8000000000000000 := by
  have hlower : -0x8000000000000000 ≤ nowMs.toInt := nowMs.le_toInt
  rw [Record.begin, Option.map_some, Option.map_some, Option.some.injEq, Int64.toInt_add,
    Int64.toInt_ofNat']
  -- The sum wraps around after the span has, and one wrap is as good as two.
  change (_ + Int.bmod _ 0x10000000000000000).bmod 0x10000000000000000 = _ ↔ _
  rw [Int.add_bmod_bmod]
  exact bmod_eq_self_iff (by omega)

/-- How long the session of a save lasts, for any number of seconds but zero. In memory it lasts as
long, unless its end is later than any instant that the clock can show: then the program stops. The
record says when it ends, and a server is told with the write and with a refresh how long it is to
keep the session, each exactly if the number of milliseconds fits its bits. -/
theorem lifetime_kept_iff (htype : repository.callerType? context.callerType = some callerType)
    (hbind : bind context callerType bindingKey = .ok bound) (moment : Moment) {n : UInt64}
    (hsecs : callerType.ttlSecs = some n) (hn : n ≠ 0) :
    (∀ store : Observed, store.failures.lookup "set" = none →
      (store.now + Duration.ofSecs n.toNat < Instant.limit → ∃ next,
        Observed.perform (repository.save context bindingKey moment) store =
          .ok (.ok (repository.withCurrentToken bound moment), next) ∧
        Puts (callerType.sessionKey bindingKey)
          ⟨(repository.sessionRecord bound callerType moment).toBytes,
            some (store.now + Duration.ofSecs n.toNat)⟩ store next) ∧
      (Instant.limit ≤ store.now + Duration.ofSecs n.toNat →
        Observed.perform (repository.save context bindingKey moment) store =
          .error .clockOverflow)) ∧
    ((repository.sessionRecord bound callerType moment).expiresAtMs.map Int64.toInt =
        some (moment.unixMs.toInt + (1000 * n.toNat : Nat)) ↔
      moment.unixMs.toInt + (1000 * n.toNat : Nat) < 0x8000000000000000) ∧
    (∀ peer : Peer, peer.outOfReach = none → ∃ millis : Nat,
      (Peer.perform (repository.save context bindingKey moment) peer).2.seen =
        [Bytes.ofText "PSETEX", Bytes.ofText (callerType.sessionKey bindingKey),
          Bytes.ofText (toString millis),
          (repository.sessionRecord bound callerType moment).toBytes] :: peer.seen ∧
      (millis = 1000 * n.toNat ↔ 1000 * n.toNat < 0x10000000000000000)) ∧
    (callerType.sliding = true → ∀ (peer : Peer) (sessionKey : String), peer.outOfReach = none →
      ∃ millis : Int, (Peer.perform (refresh callerType sessionKey) peer).2.seen =
        Command.ofTexts ["PEXPIRE", sessionKey, toString millis] :: peer.seen ∧
      (millis = (1000 * n.toNat : Nat) ↔ 1000 * n.toNat < 0x8000000000000000)) := by
  have httl := ttl?_of_ttlSecs hsecs hn
  have hmillis := Duration.toMillis_ofSecs n.toNat
  have hpos : 1 ≤ (Duration.ofSecs n.toNat).toMillis := by
    have hne : n.toNat ≠ 0 := fun hzero => hn (UInt64.toNat_inj.1 hzero)
    omega
  rw [← hmillis]
  refine ⟨fun store h => ?memory, ?record, fun peer h => ?write, fun hslides peer key h => ?refresh⟩
  case memory =>
    obtain ⟨hends, hstops⟩ := perform_save_of_ttl htype hbind moment httl h
    refine ⟨fun hlimit => ?_, hstops⟩
    obtain ⟨next, hsave⟩ := hends hlimit
    obtain ⟨e, herror, -⟩ | ⟨callerType', bound', htype', hbind', -, hputs⟩ := save_cases hsave
    · cases herror
    · cases htype.symm.trans htype'
      cases hbind.symm.trans hbind'
      rw [httl] at hputs
      refine ⟨next, hsave, ?_⟩
      rw [sessionRecord, httl]
      exact hputs
  case record =>
    rw [sessionRecord, httl]
    exact expiresAtMs_begin _ _ _
  case write =>
    have hseen := seen_save htype hbind moment h
    rw [httl] at hseen
    exact ⟨_, hseen, wireMillis_eq_iff hpos⟩
  case refresh =>
    exact ⟨_, seen_refresh h hslides httl key, bmod_wireMillis_eq_iff hpos⟩

/-! ## A minute and an age -/

/-- Sessions that last so many seconds from each use on. -/
def slidingFor (secs : UInt64) : CallerType :=
  { CallerType.ofName "c" .principal with ttlSecs := some secs, sliding := true }

/-- The repository of sessions that last so many seconds from each use on. -/
def slidingOnly (secs : UInt64) : Repository :=
  .ofCallerTypes .ofLetter [slidingFor secs]

/-- A caller without a token. -/
def newcomer : Context := .ofNames "u" "U" "c"

/-- The beginning of Unix time. -/
def epoch : Moment := ⟨0, Vector.replicate 12 0⟩

/-- A server within reach that has seen nothing. -/
def quiet : Peer := ⟨none, false, ∅, []⟩

/-- A minute is kept in memory, in the record and by a server. -/
theorem lifetime_kept_iff_of_minute :
    (∃ stored next, Observed.perform ((slidingOnly 60).save newcomer "u" epoch) .start =
      .ok (.ok stored, next)) ∧
    ((slidingOnly 60).sessionRecord newcomer (slidingFor 60) epoch).expiresAtMs.map Int64.toInt =
      some 60000 ∧
    (∃ value, (Peer.perform ((slidingOnly 60).save newcomer "u" epoch) quiet).2.seen =
      [[Bytes.ofText "PSETEX", Bytes.ofText ((slidingFor 60).sessionKey "u"), Bytes.ofText "60000",
        value]]) ∧
    (Peer.perform (refresh (slidingFor 60) "session:c:u") quiet).2.seen =
      [Command.ofTexts ["PEXPIRE", "session:c:u", "60000"]] := by
  have htype : (slidingOnly 60).callerType? newcomer.callerType = some (slidingFor 60) := rfl
  have hbind : bind newcomer (slidingFor 60) "u" = .ok newcomer := rfl
  obtain ⟨hmemory, hrecord, hwrite, hrefresh⟩ :=
    lifetime_kept_iff htype hbind epoch (n := 60) rfl (by decide)
  obtain ⟨next, hsave, -⟩ := (hmemory .start rfl).1 (by decide)
  obtain ⟨millis, hseen, hmillis⟩ := hwrite quiet rfl
  obtain ⟨millis', hseen', hmillis'⟩ := hrefresh rfl quiet "session:c:u" rfl
  rw [hmillis.2 (by decide)] at hseen
  rw [hmillis'.2 (by decide)] at hseen'
  exact ⟨⟨_, next, hsave⟩, hrecord.2 (by decide), ⟨_, hseen⟩, hseen'⟩

/-- Three hundred thousand million years stop the program where sessions are kept in memory. In the
record they have passed at once, and a server is told to keep the session for a millisecond. -/
theorem kept_long_but_lost :
    (slidingOnly 9223372036854775808).callerType? newcomer.callerType =
      some (slidingFor 9223372036854775808) ∧
    bind newcomer (slidingFor 9223372036854775808) "u" = .ok newcomer ∧
    Observed.perform ((slidingOnly 9223372036854775808).save newcomer "u" epoch) .start =
      .error .clockOverflow ∧
    ((slidingOnly 9223372036854775808).sessionRecord newcomer (slidingFor 9223372036854775808)
      epoch).expiresAtMs = some 0 ∧
    (∃ value, (Peer.perform ((slidingOnly 9223372036854775808).save newcomer "u" epoch)
      quiet).2.seen = [[Bytes.ofText "PSETEX",
        Bytes.ofText ((slidingFor 9223372036854775808).sessionKey "u"), Bytes.ofText "1",
        value]]) ∧
    (Peer.perform (refresh (slidingFor 9223372036854775808) "session:c:u") quiet).2.seen =
      [Command.ofTexts ["PEXPIRE", "session:c:u", "1"]] := by
  have htype : (slidingOnly 9223372036854775808).callerType? newcomer.callerType =
      some (slidingFor 9223372036854775808) := rfl
  have hbind : bind newcomer (slidingFor 9223372036854775808) "u" = .ok newcomer := rfl
  have httl : (slidingFor 9223372036854775808).ttl? =
      some (Duration.ofSecs 9223372036854775808) := rfl
  have hslides : (slidingFor 9223372036854775808).sliding = true := rfl
  have hquiet : quiet.outOfReach = none := rfl
  have hwire : wireMillis (Duration.ofSecs 9223372036854775808) = 1 := by decide +kernel
  refine ⟨htype, hbind, (perform_save_of_ttl htype hbind epoch httl rfl).2 (by decide), ?_, ?_, ?_⟩
  · rw [sessionRecord, httl]
    decide +kernel
  · have hseen := seen_save htype hbind epoch hquiet
    rw [httl, SessionStore.command, hwire] at hseen
    exact ⟨_, hseen⟩
  · have hseen := seen_refresh hquiet hslides httl "session:c:u"
    rw [SessionStore.command, hwire] at hseen
    exact hseen

end Session.Repository
end Turnstile
