import Turnstile.Redis.Address
import Turnstile.Redis.LockClient
import Turnstile.Session.Repository
import Turnstile.Settings.Variables

/-!
# The operator's tool

One command looks at a session, ends it, or frees a lock. The settings come from
variables, and every conversation with the server has a connection of its own. What is
wrong with the arguments is told before anything else, then what is wrong with the
settings, and only then the server is asked.
-/

namespace Turnstile.Cli

open Redis (Address Conversation RedisError)
open Session (IdentityError Repository)
open Store (StoreError)

/-- What the tool is asked to do. -/
inductive Task
  | resolve (token : String)
  | invalidate (callerType bindingKey : String)
  | logout (token : String)
  | unlock (key : String)
  deriving DecidableEq, Repr

/-- The task of some arguments. -/
def Task.parse : List String → Option Task
  | ["resolve", token] => some (.resolve token)
  | ["invalidate", callerType, bindingKey] => some (.invalidate callerType bindingKey)
  | ["logout", token] => some (.logout token)
  | ["unlock", key] => some (.unlock key)
  | _ => none

/-- What arguments there may be. -/
def usage : String :=
  "usage: guardctl <resolve TOKEN | invalidate TYPE KEY | logout TOKEN | unlock KEY>"

/-- Why a task was not done. -/
inductive Failure
  | settings (error : SettingsError)
  | redis (error : RedisError)
  | cipher (error : Token.CipherError)
  | store (error : StoreError)
  | identity (error : IdentityError)
  | lock (error : Lock.LockError)
  deriving DecidableEq

namespace Failure

/-- The kind of an error with its detail. -/
def tagged (kind detail : String) : String := kind ++ "(" ++ Text.quote detail ++ ")"

/-- The kind of an error with named details. -/
def labelled (kind : String) (details : List (String × String)) : String :=
  kind ++ " \x7b " ++
    ", ".intercalate (details.map fun d => d.1 ++ ": " ++ Text.quote d.2) ++ " \x7d"

/-- A settings error as it is shown. -/
def ofSettings : SettingsError → String
  | .missing name => tagged "Missing" name
  | .invalid name reason => labelled "Invalid" [("name", name), ("reason", reason.message)]

/-- A cipher error as it is shown. -/
def ofCipher (error : Token.CipherError) : String :=
  match error with
  | .unsupportedAlgorithm detail | .derivation detail | .encoding detail =>
    tagged error.kind detail
  | .malformed what => tagged error.kind what.message
  | .emptyKey | .authentication | .encryption => error.kind

/-- A store error as it is shown. -/
def ofStore (error : StoreError) : String :=
  match error with
  | .unavailable detail | .serialization detail => tagged error.kind detail

/-- A failed session operation as it is shown. -/
def ofIdentity (error : IdentityError) : String :=
  match error with
  | .bindingMismatch callerType bindingKey =>
    labelled error.kind [("caller_type", callerType), ("binding_key", bindingKey)]
  | .cipher e => s!"{error.kind}({ofCipher e})"
  | .storeUnavailable detail | .unknownCallerType detail | .notDeviceBound detail
  | .deviceSessionConflict detail | .noDeviceSession detail | .serialization detail =>
    tagged error.kind detail

/-- A lock error as it is shown. -/
def ofLock (error : Lock.LockError) : String :=
  match error with
  | .unavailable detail | .unknownKind detail => tagged error.kind detail

/-- A failure as it is shown. -/
def describe : Failure → String
  | .settings error => ofSettings error
  | .redis error => error.message
  | .cipher error => ofCipher error
  | .store error => s!"Store({ofStore error})"
  | .identity error => ofIdentity error
  | .lock error => ofLock error

end Failure

/-- How a run of the tool ends. -/
structure Outcome where
  code : Nat
  output : String
  errors : String
  deriving DecidableEq, Repr

namespace Outcome

/-- A task that was done, whatever came of it. -/
def done (answer : String) : Outcome := ⟨0, answer ++ "\n", ""⟩

/-- A token that leads to no session. -/
def refused (error : Session.ResolveError) : Outcome :=
  ⟨1, s!"not authenticated: {error.message}\n", ""⟩

/-- A task that was not done. -/
def failed (failure : Failure) : Outcome := ⟨1, "", s!"Error: {failure.describe}\n"⟩

/-- Arguments that are no task. -/
def misused : Outcome := ⟨2, "", usage ++ "\n"⟩

end Outcome

section Running

variable {m : Type → Type} [Monad m]

/-- Performs an operation on sessions over the server. -/
def perform {ε α : Type} (hold : {β : Type} → Conversation β → m (Except RedisError β))
    (action : Store.Action ε α) : m (Except ε α) :=
  (action.run : Store.Program _).run
    (fun call => do
      return (← hold (Redis.SessionStore.converse call)).mapError Redis.SessionStore.failure)
    fun _ => pure ()

/-- Does a task. -/
def Task.perform (hold : {β : Type} → Conversation β → m (Except RedisError β))
    (settings : Settings) (task : Task) : m (Except Failure Outcome) := do
  let repository : Except Failure Repository := do
    let cipher ← settings.cipher.cipher.mapError .cipher
    return .ofCallerTypes cipher settings.callerTypes
  match task, repository with
  | .unlock key, _ =>
    let locks := Redis.LockClient.ofPrefix settings.lock.keyPrefix
    return match ← hold (locks.forceRelease key) with
      | .ok freed => .ok (.done (if freed then "unlocked" else "not locked"))
      | .error e => .error (.lock (Redis.LockClient.failure e))
  | _, .error failure => return .error failure
  | .resolve token, .ok repository =>
    return match ← Cli.perform hold (repository.authenticate token) with
      | .ok context => .ok (.done context.toValue.toIndentedText)
      | .error (.store e) => .error (.store e)
      | .error e => .ok (.refused e)
  | .invalidate callerType bindingKey, .ok repository =>
    return match ← Cli.perform hold (repository.invalidate callerType bindingKey) with
      | .ok removed => .ok (.done (if removed then "invalidated" else "no session"))
      | .error e => .error (.identity e)
  | .logout token, .ok repository =>
    return match ← Cli.perform hold (repository.logout token) with
      | .ok removed => .ok (.done (if removed then "logged out" else "token not current"))
      | .error e => .error (.identity e)

/-- The settings of variables and the address of the server. -/
def configure (vars : Settings.Variables) : Except Failure (Settings × Address) := do
  let settings ← (Settings.ofVariables vars).mapError .settings
  return (settings, ← (Address.parse settings.redisUrl).mapError .redis)

/-- Runs the tool where conversations can be held with the server of an address. -/
def run (hold : {β : Type} → Address → Conversation β → m (Except RedisError β))
    (vars : Settings.Variables) (arguments : List String) : m Outcome := do
  match Task.parse arguments with
  | none => return .misused
  | some task =>
    match configure vars with
    | .error failure => return .failed failure
    | .ok (settings, address) =>
      match ← task.perform (hold address) settings with
      | .ok outcome => return outcome
      | .error failure => return .failed failure

end Running
end Turnstile.Cli
