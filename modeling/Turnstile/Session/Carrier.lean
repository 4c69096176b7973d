import Turnstile.Bytes.Hex
import Turnstile.Text.Basic
import Turnstile.Text.Split

/-!
# Credentials on inbound requests

A request carries its token in a header or, failing that, in a query parameter; the
device and the user id come in headers of their own. Everything that is reported is
trimmed and not empty.
-/

namespace Turnstile.Session

/-- Where requests carry their credentials. -/
structure Carrier where
  tokenHeader : String
  tokenParam : String
  deviceHeader : String
  userIdHeader : String
  loginPath : String
  deriving DecidableEq, Repr

/-- The customary places. -/
def Carrier.standard : Carrier where
  tokenHeader := "Authorization"
  tokenParam := "access_token"
  deviceHeader := "X-Device-Id"
  userIdHeader := "X-User-Id"
  loginPath := "/login"

/-- What a device presents when its session is written. -/
structure DeviceBinding where
  deviceId : String
  presentedUserId : Option String
  presentedToken : Option String
  isLogin : Bool
  deriving DecidableEq, Repr

/-- The credentials found on a request. -/
structure Credentials where
  token : Option String
  deviceId : Option String
  userId : Option String
  isLogin : Bool
  deriving DecidableEq, Repr

/-- A request, as far as credentials are concerned. -/
structure Request where
  headers : List (String × String)
  path : String
  query : Option String
  deriving DecidableEq, Repr

namespace Carrier

/-- The scheme that may stand before a token. -/
def scheme : List Char := ['b', 'e', 'a', 'r', 'e', 'r']

/-- A token header's value without the scheme. The scheme must stand alone or be followed by a
blank, since a token may begin with the same letters. -/
def stripScheme (value : List Char) : List Char :=
  let rest := value.drop 6
  if (value.take 6).map Char.toLower = scheme ∧ rest.head?.all Text.isBlank then
    Text.trimChars rest
  else value

/-- The text of an encoded parameter value, if it is text and not blank. -/
def decodeParameter (raw : List Char) : Option String :=
  let spaced := raw.map fun c => if c = '+' then ' ' else c
  (Bytes.toText? (Percent.decode (Bytes.ofText (String.ofList spaced)))).bind Text.nonBlank?

/-- The value of the first parameter of a name. -/
def queryParameter (name : String) (query : String) : Option String :=
  let pairs := (Text.splitAt '&' (query.toList.dropWhile (· == '?'))).filterMap (Text.cutAt? '=')
  (pairs.find? (·.1 = name.toList)).bind fun pair => decodeParameter pair.2

/-- A path up to its query, without slashes at the end. -/
def bareEnd (path : List Char) : List Char := (path.reverse.dropWhile (· == '/')).reverse

/-- Whether a request's path is the login path. -/
def isLoginPath (carrier : Carrier) (path : String) : Bool :=
  bareEnd (path.toList.takeWhile (· != '?')) == bareEnd carrier.loginPath.toList

/-- What one more header adds to the credentials. Later headers win, blank values count as
absent, and so does a scheme without a token. -/
def readHeader (carrier : Carrier) (found : Credentials) (header : String × String) :
    Credentials :=
  match Text.nonBlank? header.2 with
  | none => found
  | some value =>
    if Text.sameIgnoringCase header.1 carrier.tokenHeader then
      let token := stripScheme value.toList
      if token.isEmpty then found else { found with token := some (String.ofList token) }
    else if Text.sameIgnoringCase header.1 carrier.deviceHeader then
      { found with deviceId := some value }
    else if Text.sameIgnoringCase header.1 carrier.userIdHeader then
      { found with userId := some value }
    else found

/-- The credentials of a request. -/
def extract (carrier : Carrier) (request : Request) : Credentials :=
  let found := request.headers.foldl (readHeader carrier) ⟨none, none, none, false⟩
  let token := match found.token with
    | some token => some token
    | none => request.query.bind (queryParameter carrier.tokenParam)
  { found with token, isLogin := carrier.isLoginPath request.path }

end Carrier

/-- What the request's device presents, if it names one. -/
def Credentials.deviceBinding? (credentials : Credentials) : Option DeviceBinding :=
  credentials.deviceId.map fun deviceId =>
    ⟨deviceId, credentials.userId, credentials.token, credentials.isLogin⟩

end Turnstile.Session
