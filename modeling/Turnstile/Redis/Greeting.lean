import Turnstile.Redis.Address
import Turnstile.Redis.Conversation

/-!
# Greetings

Before its first command a connection says who it is, if its address names a password,
and which database it means, if that is not the first one. A server that knows no users
is told the password alone.
-/

namespace Turnstile.Redis.Address

/-- Says who calls, and goes on if the server agrees. -/
def identify (names : List String) (otherwise : String → Conversation Unit) : Conversation Unit :=
  .send (.ofTexts ("AUTH" :: names)) fun
    | .ok (.status "OK") => .done (.ok ())
    | .ok (.error text) => otherwise text
    | _ => .done (.error .notAuthenticated)

/-- Whether an error says that the server takes a password alone. -/
def wantsPasswordAlone (text : String) : Bool :=
  match Reply.reported text with
  | .server _ (some detail) =>
    Text.occursIn "wrong number of arguments for 'auth' command".toList detail.toList
  | _ => false

/-- Says who calls, if the address names a password. -/
def authenticate (address : Address) : Conversation Unit :=
  let refuse : Conversation Unit := .done (.error .notAuthenticated)
  let (user, password) := address.credentials
  if password.isEmpty then .done (.ok ())
  else
    let known := ([user, password].filter (!·.isEmpty)).filterMap decoded?
    identify known fun text =>
      if wantsPasswordAlone text then identify (known.drop (known.length - 1)) fun _ => refuse
      else refuse

/-- Chooses the database, if it is not the first one. -/
def choose (address : Address) : Conversation Unit :=
  let database := (databaseOf? (address.path.getD [])).getD 0
  if database = 0 then .done (.ok ())
  else
    .send (.ofTexts ["SELECT", toString database]) fun
      | .ok (.status "OK") => .done (.ok ())
      | _ => .done (.error .noDatabase)

/-- What a connection says first. -/
def greet (address : Address) : Conversation Unit := do
  address.authenticate
  address.choose

end Turnstile.Redis.Address
