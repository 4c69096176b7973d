import Turnstile.Text.Basic

/-!
# Kinds of waiting

Waiters of an exclusive lock are let in as they come to look; fair waiters are let in
in the order of their arrival.
-/

namespace Turnstile.Lock

/-- Why a lock server gave no answer, or a kind was not understood. -/
inductive LockError
  | unavailable (detail : String)
  | unknownKind (name : String)
  deriving DecidableEq, Repr

/-- The name of the kind of a lock error. -/
def LockError.kind : LockError → String
  | .unavailable _ => "Unavailable"
  | .unknownKind _ => "UnknownKind"

/-- The wording of a lock error. -/
def LockError.message : LockError → String
  | .unavailable detail => "Lock server unavailable: " ++ detail
  | .unknownKind name => "Unknown lock kind: " ++ name

/-- How those that wait for a lock are let in. -/
inductive Kind
  | exclusive
  | fair
  deriving DecidableEq, Repr, Inhabited

/-- The name of a kind. -/
def Kind.name : Kind → String
  | .exclusive => "exclusive"
  | .fair => "fair"

/-- Reads the name of a kind, up to letter case and blanks around it. -/
def Kind.parse (text : String) : Except LockError Kind :=
  let name := Text.toAsciiLower (Text.trim text)
  if name = "exclusive" then .ok .exclusive
  else if name = "fair" then .ok .fair
  else .error (.unknownKind name)

/-- A kind is read from its name. -/
theorem Kind.parse_name (kind : Kind) : Kind.parse kind.name = .ok kind := by
  have hname : Text.toAsciiLower (Text.trim kind.name) = kind.name := by
    cases kind <;> decide +kernel
  rw [parse, hname]
  cases kind <;> rfl

end Turnstile.Lock
