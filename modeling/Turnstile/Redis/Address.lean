import Turnstile.Bytes.Hex
import Turnstile.Bytes.Repair
import Turnstile.Redis.Reply
import Turnstile.Text.Basic
import Turnstile.Text.Replace
import Turnstile.Text.Split

/-!
# Addresses of servers

A server is named by a URL: a host with a port, credentials and the number of a database,
or the path of a local socket. Here it is decided whether a URL can be used at all, and
which of its faults is reported.
-/

namespace Turnstile.Redis

/-- The parts of a URL that name a server. -/
structure Address where
  scheme : String
  userinfo : List Char
  /-- The host, empty if there is none. -/
  host : List Char
  port : Option Nat
  /-- The path, if it begins with a slash or follows a host. -/
  path : Option (List Char)
  query : List Char
  deriving DecidableEq, Repr

namespace Address

/-- The schemes of servers on the network. -/
def networkSchemes : List String := ["redis", "rediss"]

/-- The schemes of local sockets. -/
def socketSchemes : List String := ["unix", "redis+unix"]

/-- The text without blanks and control characters around it, and without line breaks and tabs. -/
def clean (url : String) : List Char :=
  let isOuter (c : Char) : Bool := c.toNat ≤ 0x20
  let trimmed := ((url.toList.dropWhile isOuter).reverse.dropWhile isOuter).reverse
  trimmed.filter fun c => c != '\t' && c != '\n' && c != '\r'

/-- A character that ends the authority of a URL. -/
def endsAuthority (c : Char) : Bool := c == '/' || c == '?' || c == '#'

/-- The scheme and what follows its colon. -/
def scheme? (text : List Char) : Option (String × List Char) :=
  match Text.cutAt? ':' text with
  | some (first :: more, rest) =>
    if first.isAlpha ∧ more.all fun c => c.isAlphanum || c == '+' || c == '-' || c == '.' then
      some ((String.ofList (first :: more)).toLower, rest)
    else none
  | _ => none

/-- Whether a text is four numbers below 256 with dots between, none with a leading zero. -/
def isIpv4 (text : List Char) : Bool :=
  let isPart (part : List Char) : Bool :=
    (Text.digits? part).any (· < 256) && part.length ≤ 3 &&
      (part.length == 1 || part.head? != some '0')
  let parts := Text.splitAt '.' text
  parts.length == 4 && parts.all isPart

/-- Whether a character is a hexadecimal digit. -/
def isHexDigit (c : Char) : Bool := (Hex.digitValue? c).isSome

/-- Whether a text continues an address of eight groups, of which so many have been read; one run of
zero groups may be left out. The length of the text bounds the number of groups. -/
def ipv6Groups : Nat → Nat → Bool → List Char → Bool
  | _, groups, compressed, [] => compressed || groups == 8
  | 0, _, _, _ => false
  | bound + 1, groups, compressed, c :: rest =>
    if groups == 8 then false
    else if c == ':' then !compressed && ipv6Groups bound (groups + 1) true rest
    else
      let digits := ((c :: rest).take 4).takeWhile isHexDigit
      match (c :: rest).drop digits.length with
      | [] => compressed || groups + 1 == 8
      | '.' :: _ =>
        !digits.isEmpty && groups ≤ 6 && isIpv4 (c :: rest) && (compressed || groups + 2 == 8)
      | ':' :: more => !more.isEmpty && ipv6Groups bound (groups + 1) compressed more
      | _ => false

/-- Whether a text is an address of eight groups. -/
def isIpv6 (text : List Char) : Bool :=
  match text with
  | ':' :: ':' :: rest => ipv6Groups rest.length 1 true rest
  | ':' :: _ | [] | [_] => false
  | _ => ipv6Groups text.length 0 false text

/-- The characters that no host name contains. -/
def forbiddenInHost : List Char :=
  ['\x00', '\t', '\n', '\r', ' ', '#', '/', ':', '<', '>', '?', '@', '[', '\\', ']', '^', '|']

/-- Whether a text can be a host. -/
def isHost (text : List Char) : Bool :=
  match text with
  | '[' :: rest => rest.getLast? == some ']' && isIpv6 rest.dropLast
  | _ => text.all fun c => !forbiddenInHost.contains c

/-- A host and what follows it, which is nothing or begins with a colon. Colons between brackets
belong to the host. -/
def splitHost : Bool → List Char → List Char × List Char
  | _, [] => ([], [])
  | bracketed, c :: rest =>
    if c == ':' && !bracketed then ([], c :: rest)
    else
      let inside := if c == '[' then true else if c == ']' then false else bracketed
      let (host, after) := splitHost inside rest
      (c :: host, after)

/-- A port of digits, which a backslash may end. -/
def port? (text : List Char) : Option (Option Nat × List Char) :=
  let digits := text.takeWhile Char.isDigit
  let rest := text.dropWhile Char.isDigit
  let n := Text.digitsValue digits
  if n < 65536 ∧ rest.head?.all (· == '\\') then
    some (if digits.isEmpty then none else some n, rest)
  else none

/-- A text cut at the last occurrence of a character. -/
def cutAtLast? (separator : Char) (text : List Char) : Option (List Char × List Char) :=
  (Text.cutAt? separator text.reverse).map fun (after, before) => (before.reverse, after.reverse)

/-- The path and the query of what follows the authority. -/
def pathAndQuery (text : List Char) : List Char × List Char :=
  let beforeFragment := text.takeWhile (· != '#')
  (beforeFragment.takeWhile (· != '?'), (beforeFragment.dropWhile (· != '?')).drop 1)

/-- The address of a URL with an authority. An authority without a host must be empty, up to an at
sign and a colon. -/
def withAuthority? (scheme : String) (text : List Char) : Option Address := do
  let authority := text.takeWhile (!endsAuthority ·)
  let rest := text.dropWhile (!endsAuthority ·)
  let at? := cutAtLast? '@' authority
  let userinfo := (at?.map (·.1)).getD []
  let location := (at?.map (·.2)).getD authority
  if at?.isSome ∧ userinfo.isEmpty ∧ location.isEmpty ∧ ¬rest.isEmpty then none
  let (host, after) := splitHost false location
  if !isHost host then none
  let named := !userinfo.isEmpty && userinfo != [':']
  if host.isEmpty && (named || !after.isEmpty) then none
  let (port, extra) ← port? (after.drop 1)
  let (path, query) := pathAndQuery (extra ++ rest)
  return { scheme, userinfo, host, port, path := some path, query }

/-- The address of a URL, if it is one of a server. -/
def read? (url : String) : Option Address := do
  let (scheme, rest) ← scheme? (clean url)
  if !(networkSchemes ++ socketSchemes).contains scheme then none
  match rest with
  | '/' :: '/' :: text => withAuthority? scheme text
  | text =>
    let (path, query) := pathAndQuery text
    let rooted := if path.head? = some '/' then some path else none
    return { scheme, userinfo := [], host := [], port := none, path := rooted, query }

/-- The segments of a path, without those that stand for no step or a step back. -/
def segments (path : List Char) : List (List Char) :=
  let plain (segment : List Char) : String :=
    String.ofList (Text.replaceAll "%2e".toList ['.'] (segment.map Char.toLower))
  (Text.splitAt '/' path).foldl (fun done segment =>
    if plain segment = "." then done
    else if plain segment = ".." then done.dropLast
    else done ++ [segment]) []

/-- A number of 64 bits with a sign. -/
def signed? (text : List Char) : Option Int :=
  (Text.integer? text).filter fun n => -0x8000000000000000 ≤ n ∧ n < 0x8000000000000000

/-- The database that a path names: by a number, or the first one by nothing. -/
def databaseOf? (path : List Char) : Option Int :=
  let isSlash (c : Char) : Bool := c == '/'
  let joined := ['/'].intercalate (segments path)
  let name := ((joined.dropWhile isSlash).reverse.dropWhile isSlash).reverse
  if name.isEmpty then some 0 else signed? name

/-- The decoded values of a parameter; damaged text in them is repaired. -/
def parameter (address : Address) (name : String) : List String :=
  let decode (raw : List Char) : String :=
    let spaced := raw.map fun c => if c = '+' then ' ' else c
    Bytes.repaired (Percent.decode (Bytes.ofText (String.ofList spaced)))
  (Text.splitAt '&' address.query).filterMap fun pair =>
    let (key, value) := (Text.cutAt? '=' pair).getD (pair, [])
    if decode key = name then some (decode value) else none

/-- The text of percent-encoded text. -/
def decoded? (raw : List Char) : Option String :=
  Bytes.toText? (Percent.decode (Bytes.ofText (String.ofList raw)))

/-- The user and the password as they are written. -/
def credentials (address : Address) : List Char × List Char :=
  (Text.cutAt? ':' address.userinfo).getD (address.userinfo, [])

/-- Refuses an unknown version of the protocol. -/
def checkProtocol (address : Address) : Except RedisError Unit :=
  match (address.parameter "protocol").getLast? with
  | none => .ok ()
  | some version =>
    if ["2", "resp2", "3", "resp3"].contains version then .ok ()
    else .error (.address "Invalid protocol version" (some version))

/-- Refuses an address on the network that cannot be used. -/
def checkNetwork (address : Address) : Except RedisError Unit := do
  if address.host.isEmpty then throw (.address "Missing hostname" none)
  if address.scheme = "rediss" then
    throw (.address "can't connect with TLS, the feature is not enabled" none)
  if (databaseOf? (address.path.getD [])).isNone then
    throw (.address "Invalid database number" none)
  let (user, password) := address.credentials
  if (decoded? user).isNone then throw (.address "Username is not valid UTF-8 string" none)
  if (decoded? password).isNone then throw (.address "Password is not valid UTF-8 string" none)
  address.checkProtocol

/-- Refuses the address of a socket that cannot be used. -/
def checkSocket (address : Address) : Except RedisError Unit := do
  let isLocal := address.host.isEmpty || address.host = "localhost".toList
  if !isLocal || (address.path.getD []).isEmpty then throw (.address "Missing path" none)
  match (address.parameter "db").getLast? with
  | some db =>
    if (signed? db.toList).isNone then throw (.address "Invalid database number" none)
  | none => pure ()
  address.checkProtocol

/-- The address of a URL that can be used. -/
def parse (url : String) : Except RedisError Address :=
  match read? url with
  | none => .error (.address "Redis URL did not parse" none)
  | some address => do
    if networkSchemes.contains address.scheme then address.checkNetwork else address.checkSocket
    return address

end Address
end Turnstile.Redis
