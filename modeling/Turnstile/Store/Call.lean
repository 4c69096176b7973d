import Turnstile.Bytes
import Turnstile.Time

/-!
# Calls to the session store

The store keeps octets under keys, each entry for a limited time or without end. These
are the four calls that can be made to it, the answers they may get, and the ways in
which they may fail.
-/

namespace Turnstile.Store

/-- Why a call to the store gave no answer. -/
inductive StoreError
  | unavailable (detail : String)
  | serialization (detail : String)
  deriving DecidableEq, Repr

/-- The name of the kind of a store error. -/
def StoreError.kind : StoreError → String
  | .unavailable _ => "Unavailable"
  | .serialization _ => "Serialization"

/-- The wording of a store error. -/
def StoreError.message : StoreError → String
  | .unavailable detail => "Session store unavailable: " ++ detail
  | .serialization detail => "Session record serialization failed: " ++ detail

/-- A call to the store. -/
inductive Call
  /-- Reads the value under a key. -/
  | get (key : String)
  /-- Writes a value, which replaces both the value and the expiry that were there. -/
  | set (key : String) (value : Bytes) (ttl : Option Duration)
  /-- Removes a key and tells whether it had a value. -/
  | delete (key : String)
  /-- Begins the time of an existing entry anew, and tells whether there was one. -/
  | expire (key : String) (ttl : Duration)
  deriving DecidableEq

namespace Call

/-- What a call is answered with. -/
abbrev Answer : Call → Type
  | .get _ => Option Bytes
  | .set .. => Unit
  | .delete _ => Bool
  | .expire .. => Bool

/-- The key that a call is about. -/
def key : Call → String
  | .get key => key
  | .set key _ _ => key
  | .delete key => key
  | .expire key _ => key

/-- The name of a call. -/
def name : Call → String
  | .get _ => "get"
  | .set .. => "set"
  | .delete _ => "delete"
  | .expire .. => "expire"

/-- The call with its key and its time in milliseconds. -/
def describe : Call → String
  | .get key => s!"get {key}"
  | .set key _ none => s!"set {key} ttl_ms=none"
  | .set key _ (some ttl) => s!"set {key} ttl_ms={ttl.toMillis}"
  | .delete key => s!"delete {key}"
  | .expire key ttl => s!"expire {key} ttl_ms={ttl.toMillis}"

end Call
end Turnstile.Store
