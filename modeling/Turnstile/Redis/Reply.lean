import Turnstile.Text.Basic
import Turnstile.Text.Quoted

/-!
# Commands and replies

A Redis server is sent commands, which are lists of octet strings, and answers each with
a reply. A reply is read as the type that the caller expects; a reply that reports an
error, or one of another type, is an error of the call.
-/

namespace Turnstile.Redis

/-- A command with its arguments. -/
abbrev Command := List Bytes

/-- A command given as text. -/
def Command.ofTexts (parts : List String) : Command := parts.map Bytes.ofText

/-- What a server replies. -/
inductive Reply
  | nil
  | integer (n : Int)
  | status (s : String)
  | bulk (octets : Bytes)
  | error (text : String)
  deriving DecidableEq

/-- Why a call to the server failed. -/
inductive RedisError
  /-- The address cannot be used. -/
  | address (problem : String) (detail : Option String)
  /-- The network did not carry the call. -/
  | network (problem : String)
  /-- The server does not believe who calls. -/
  | notAuthenticated
  /-- The server does not open the database. -/
  | noDatabase
  /-- The server has reported an error by a code and perhaps more. -/
  | server (code : String) (detail : Option String)
  /-- The reply is of another type. -/
  | incompatible (expectation reply : String)
  /-- The reply is no text. -/
  | notText
  deriving DecidableEq, Repr

/-- The code of the error that a script is not known to the server. -/
def noScript : String := "NOSCRIPT"

/-- What the errors with codes of their own are called. -/
def errorNames : List (String × String) := [
  ("ERR", "ResponseError"), ("EXECABORT", "ExecAbortError"), ("LOADING", "BusyLoadingError"),
  (noScript, "NoScriptError"), ("MOVED", "Moved"), ("ASK", "Ask"), ("TRYAGAIN", "TryAgain"),
  ("CLUSTERDOWN", "ClusterDown"), ("CROSSSLOT", "CrossSlot"), ("MASTERDOWN", "MasterDown"),
  ("READONLY", "ReadOnly"), ("NOTBUSY", "NotBusy")]

/-- The wording of an error. -/
def RedisError.message : RedisError → String
  | .address problem none => problem ++ "- InvalidClientConfig"
  | .address problem (some detail) => problem ++ " - InvalidClientConfig: " ++ detail
  | .network problem => problem
  | .notAuthenticated => "Password authentication failed- AuthenticationFailed"
  | .noDatabase => "Redis server refused to switch database- ResponseError"
  | .server code detail =>
    match errorNames.lookup code, detail with
    | some name, some detail => s!"An error was signalled by the server - {name}: {detail}"
    | some name, none => s!"An error was signalled by the server- {name}"
    | none, detail => code ++ ": " ++ detail.getD "Unknown extension error encountered"
  | .incompatible expectation reply =>
    "Response was of incompatible type - TypeError: " ++ Text.quote expectation ++
      " (response was " ++ reply ++ ")"
  | .notText => "Invalid UTF-8- TypeError"

namespace Reply

/-- The error that an error reply reports: a code up to the first space, and what follows it. -/
def reported (text : String) : RedisError :=
  let code := String.ofList (text.toList.takeWhile (· != ' '))
  match text.toList.dropWhile (· != ' ') with
  | _ :: detail => .server code (some (String.ofList detail))
  | [] => .server code none

/-- The reply as an error shows it. -/
def describe : Reply → String
  | .nil => "nil"
  | .integer n => s!"int({n})"
  | .status "OK" => "ok"
  | .status s => s!"simple-string({Text.quote s})"
  | .bulk octets =>
    match Bytes.toText? octets with
    | some s => s!"bulk-string('{Text.quote s}')"
    | none => s!"binary-data({octets.map UInt8.toNat})"
  | .error text => s!"error({Text.quote text})"

/-- Refuses a reply for its type; an error reply is reported instead. -/
def refuse {α : Type} (reply : Reply) (expectation : String) : Except RedisError α :=
  match reply with
  | .error text => .error (reported text)
  | reply => .error (.incompatible expectation reply.describe)

/-- Any reply that reports no error. -/
def done : Reply → Except RedisError Unit
  | .error text => .error (reported text)
  | _ => .ok ()

/-- A value, or nothing. -/
def octets? : Reply → Except RedisError (Option Bytes)
  | .nil => .ok none
  | .bulk octets => .ok (some octets)
  | reply => reply.refuse "Response type not vector compatible."

/-- The text of octets that are expected to have one. -/
def textOf (octets : Bytes) : Except RedisError String :=
  match Bytes.toText? octets with
  | some s => .ok s
  | none => .error .notText

/-- A text, or nothing. -/
def text? : Reply → Except RedisError (Option String)
  | .nil => .ok none
  | .integer n => .ok (some (toString n))
  | .status s => .ok (some s)
  | .bulk octets => some <$> textOf octets
  | reply => reply.refuse "Response type not string compatible."

/-- A number, which may be given as text; `ofInt` and `ofText?` say which numbers there are. -/
def numberWith {α : Type} (ofInt : Int → α) (ofText? : List Char → Option α) (reply : Reply) :
    Except RedisError α :=
  let read (s : String) : Except RedisError α :=
    match ofText? s.toList with
    | some n => .ok n
    | none => reply.refuse "Could not convert from string."
  match reply with
  | .integer n => .ok (ofInt n)
  | .status s => read s
  | .bulk octets => textOf octets >>= read
  | reply => reply.refuse "Response type not convertible to numeric."

/-- A number of 64 bits with a sign. -/
def integer? : Reply → Except RedisError Int :=
  numberWith id fun s =>
    (Text.integer? s).filter fun n => -0x8000000000000000 ≤ n ∧ n < 0x8000000000000000

/-- A number of 64 bits; a negative one counts from the other end. -/
def natural? : Reply → Except RedisError Nat :=
  numberWith (fun n => (n % UInt64.size).toNat) fun s => (Text.natural? s).filter (· < UInt64.size)

/-- A truth value. -/
def flag? (reply : Reply) : Except RedisError Bool :=
  let refused := reply.refuse "Response type not bool compatible."
  match reply with
  | .nil => .ok false
  | .integer n => .ok (n != 0)
  | .status s =>
    if s = "1" ∨ s = "OK" then .ok true
    else if s = "0" then .ok false
    else reply.refuse "Response status not valid boolean"
  | .bulk octets =>
    if octets = Bytes.ofText "1" then .ok true
    else if octets = Bytes.ofText "0" then .ok false
    else refused
  | _ => refused

end Reply
end Turnstile.Redis
