import Turnstile.Proofs.Store.Performance
import Turnstile.Session.Repository

/-!
# Journals of sessions

What the operations on sessions have done, told by their outcomes alone: a successful save
writes a session, a successful removal ends one, and a successful authentication begins the
time of a sliding one anew. From such a journal it follows which session stands under a key
and until when, without any store.
-/

namespace Turnstile

/-- How long a session lasts from each use on, if its uses matter. -/
def CallerType.renewal? (callerType : CallerType) : Option Duration :=
  if callerType.sliding then callerType.ttl? else none

namespace Session

open Store (Observed)

/-- What an operation has done to the session under a key. -/
inductive Deed
  /-- A record has been written, for so long or without end. -/
  | wrote (sessionKey : String) (record : Record) (ttl : Option Duration)
  | removed (sessionKey : String)
  /-- A token has led to the session, under a caller type. -/
  | authenticated (sessionKey : String) (callerType : CallerType)

/-- What has been done with its instants, the latest deed first. -/
abbrev Journal := List (Instant × Deed)

/-- A session that stands until it lapses, if it does. -/
structure Standing where
  context : Context
  expiresAt : Option Instant

/-- Whether a session has not lapsed. -/
def Standing.lasts (standing : Standing) (now : Instant) : Bool :=
  standing.expiresAt.all (now < ·)

namespace Journal

/-- The session under a key: what was written there last, unless it has been removed since. Its
time counts from the write, or from the last use of a sliding session. -/
def standing? (key : String) : Journal → Option Standing
  | [] => none
  | (now, .wrote sessionKey record ttl) :: earlier =>
    if sessionKey = key then some ⟨record.context, ttl.map (now + ·)⟩ else standing? key earlier
  | (_, .removed sessionKey) :: earlier =>
    if sessionKey = key then none else standing? key earlier
  | (now, .authenticated sessionKey callerType) :: earlier =>
    match callerType.renewal? with
    | some ttl =>
      if sessionKey = key then
        (standing? key earlier).map ({ · with expiresAt := some (now + ttl) })
      else standing? key earlier
    | none => standing? key earlier

/-- Whether every record that has been written reads back from its octets. -/
def ReadsBack (journal : Journal) : Prop :=
  ∀ now sessionKey record ttl, (now, .wrote sessionKey record ttl) ∈ journal →
    Record.ofBytes record.toBytes = .ok record

end Journal

/-! ## What an outcome says -/

namespace Repository

variable (repository : Repository)

/-- What a save under a binding key has done. -/
def written (bindingKey : String) (moment : Moment) : Except IdentityError Context → List Deed
  | .error _ => []
  | .ok stored =>
    match repository.callerType? stored.callerType with
    | none => []
    | some callerType =>
      [.wrote (callerType.sessionKey bindingKey)
        (.begin stored moment.unixMs callerType.ttl?) callerType.ttl?]

/-- What an invalidation has done. -/
def invalidated (name bindingKey : String) : Except IdentityError Bool → List Deed
  | .ok true =>
    match repository.callerType? name with
    | none => []
    | some callerType => [.removed (callerType.sessionKey bindingKey)]
  | _ => []

/-- What a logout has done. -/
def loggedOut (token : String) : Except IdentityError Bool → List Deed
  | .ok true =>
    match repository.address token with
    | .error _ => []
    | .ok (_, _, sessionKey) => [.removed sessionKey]
  | _ => []

/-- What the use of a token has done, if the token is authenticated. -/
def used (store : Observed) (token : String) : List Deed :=
  match Observed.perform (repository.authenticate token) store, repository.address token with
  | .ok (.ok _, _), .ok (_, callerType, sessionKey) => [.authenticated sessionKey callerType]
  | _, _ => []

end Repository

/-- An operation takes a store to the next one, and has done some deeds. A fault that stops the
program leads nowhere. -/
inductive Happens (repository : Repository) (store : Observed) : List Deed → Observed → Prop
  | save {context : Context} {bindingKey : String} {moment : Moment}
      {answer : Except IdentityError Context} {next : Observed}
      (h : Observed.perform (repository.save context bindingKey moment) store =
        .ok (answer, next)) :
      Happens repository store (repository.written bindingKey moment answer) next
  | login {context : Context} {bindingKey : String} {moment : Moment}
      {answer : Except IdentityError Context} {next : Observed}
      (h : Observed.perform (repository.login context bindingKey moment) store =
        .ok (answer, next)) :
      Happens repository store (repository.written bindingKey moment answer) next
  | saveForDevice {context : Context} {binding : DeviceBinding} {moment : Moment}
      {answer : Except IdentityError Context} {next : Observed}
      (h : Observed.perform (repository.saveForDevice context binding moment) store =
        .ok (answer, next)) :
      Happens repository store (repository.written binding.deviceId moment answer) next
  | invalidate {callerType bindingKey : String} {answer : Except IdentityError Bool}
      {next : Observed}
      (h : Observed.perform (repository.invalidate callerType bindingKey) store =
        .ok (answer, next)) :
      Happens repository store (repository.invalidated callerType bindingKey answer) next
  | logout {token : String} {answer : Except IdentityError Bool} {next : Observed}
      (h : Observed.perform (repository.logout token) store = .ok (answer, next)) :
      Happens repository store (repository.loggedOut token answer) next
  | authenticate {token : String} {answer : Except ResolveError Context} {next : Observed}
      (h : Observed.perform (repository.authenticate token) store = .ok (answer, next)) :
      Happens repository store (repository.used store token) next
  | resolve {token : String} {answer : Except IdentityError (Option Context)} {next : Observed}
      (h : Observed.perform (repository.resolve token) store = .ok (answer, next)) :
      Happens repository store (repository.used store token) next
  | resolveRequest {credentials : Credentials} {answer : Except IdentityError (Option Context)}
      {next : Observed}
      (h : Observed.perform (repository.resolveRequest credentials) store = .ok (answer, next)) :
      Happens repository store (credentials.token.elim [] (repository.used store)) next

/-- The stores that courses of operations lead to, with time passing in between. -/
inductive Course (repository : Repository) : Journal → Observed → Prop
  | start : Course repository [] .start
  | wait {journal : Journal} {store : Observed} (course : Course repository journal store)
      (span : Duration) : Course repository journal { store with now := store.now + span }
  | operation {journal : Journal} {store next : Observed} {deeds : List Deed}
      (course : Course repository journal store)
      (happens : Happens repository store deeds next) :
      Course repository (deeds.map (store.now, ·) ++ journal) next

end Session
end Turnstile
