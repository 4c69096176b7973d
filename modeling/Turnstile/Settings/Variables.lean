import Turnstile.Settings.Basic

/-!
# Settings from variables

Every setting has a variable, and all but the cipher key have a default that stands for
a blank or missing variable. Each declared caller type has variables of its own, named
after it. The first unacceptable variable, in the order in which they are read, is
reported.
-/

namespace Turnstile

/-- Why a text is no number. -/
inductive NumberFault
  | empty
  | invalidDigit
  | tooLarge
  deriving DecidableEq, Repr

/-- The wording of a number's fault. -/
def NumberFault.message : NumberFault → String
  | .empty => "cannot parse integer from empty string"
  | .invalidDigit => "invalid digit found in string"
  | .tooLarge => "number too large to fit in target type"

/-- What is unacceptable about a variable. -/
inductive Reason
  | number (fault : NumberFault)
  | notBoolean
  | algorithm (error : Token.CipherError)
  | lockKind (error : Lock.LockError)
  | unknownBinding (name : String)
  | emptyOrDuplicate (callerType : String)
  | template (error : Key.KeyError)
  | noCallerType
  deriving DecidableEq

/-- The wording of a fault with the name of a binding. -/
def unknownBindingMessage (name : String) : String :=
  "unknown binding strategy " ++ Text.quote name

/-- The wording of a reason. -/
def Reason.message : Reason → String
  | .number fault => fault.message
  | .notBoolean => "provided string was not `true` or `false`"
  | .algorithm error => error.message
  | .lockKind error => error.message
  | .unknownBinding name => unknownBindingMessage name
  | .emptyOrDuplicate callerType => "empty or duplicate caller type " ++ Text.quote callerType
  | .template error => error.message
  | .noCallerType => "at least one caller type is required"

/-- Why settings were not accepted. -/
inductive SettingsError
  | missing (name : String)
  | invalid (name : String) (reason : Reason)
  deriving DecidableEq

/-- The name of the kind of a settings error. -/
def SettingsError.kind : SettingsError → String
  | .missing _ => "Missing"
  | .invalid .. => "Invalid"

/-- The wording of a settings error. -/
def SettingsError.message : SettingsError → String
  | .missing name => "Missing required setting " ++ name
  | .invalid name reason => s!"Invalid value for {name}: {reason.message}"

namespace Settings

/-- The value of a decimal digit. -/
def digitValue? (c : Char) : Option Nat := if c.isDigit then some (c.toNat - 48) else none

/-- Appends decimal digits to a number that has to stay below 64 bits. -/
def readDigits : Nat → List Char → Except NumberFault UInt64
  | n, [] => .ok (UInt64.ofNat n)
  | n, c :: rest =>
    match digitValue? c with
    | none => .error .invalidDigit
    | some d => if 10 * n + d < UInt64.size then readDigits (10 * n + d) rest else .error .tooLarge

/-- Reads a number of 64 bits; a plus sign may stand before it. -/
def readNumber (text : String) : Except NumberFault UInt64 :=
  match text.toList with
  | [] => .error .empty
  | '+' :: [] => .error .invalidDigit
  | '+' :: digits => readDigits 0 digits
  | digits => readDigits 0 digits

/-- Reads a truth value. -/
def readFlag (text : String) : Except Reason Bool :=
  if text = "true" then .ok true
  else if text = "false" then .ok false
  else .error .notBoolean

/-- The values of variables. -/
abbrev Variables := String → Option String

/-- What a variable's trimmed text is read as. -/
def readVariable {α : Type} (name : String) (read : String → Except Reason α) (raw : String) :
    Except SettingsError α :=
  (read (Text.trim raw)).mapError (.invalid name)

/-- A variable that is read unless it is missing or blank. -/
def variableOr {α : Type} (vars : Variables) (name : String)
    (read : String → Except Reason α) (default : α) : Except SettingsError α :=
  match vars name with
  | some raw => if (Text.trim raw).isEmpty then .ok default else readVariable name read raw
  | none => .ok default

/-- A variable that is taken as it stands unless it is missing or blank. -/
def textOr (vars : Variables) (name default : String) : String :=
  match vars name with
  | some raw => if (Text.trim raw).isEmpty then default else raw
  | none => default

/-- The trimmed entries of a list, without blank ones. -/
def splitList (raw : String) : List String :=
  (Text.splitAt ',' raw.toList).filterMap fun part =>
    Text.nonBlank? (String.ofList part)

/-- A number as a reason's reader. -/
def numberVariable (text : String) : Except Reason UInt64 := (readNumber text).mapError .number

/-- The variable that declares the caller types. -/
def callerTypesVariable : String := "GUARD_CALLER_TYPES"

/-- The name and the binding's text of a declared caller type. -/
def declaration (entry : String) : String × String :=
  match Text.cutAt? ':' entry.toList with
  | some (name, binding) =>
    (Text.trim (String.ofList name), Text.trim (String.ofList binding))
  | none => (entry, Binding.principal.name)

/-- A variable of a caller type. -/
def callerVariable (callerType suffix : String) : String :=
  let name := (Text.toAsciiUpper callerType).map fun c => if c = '-' then '_' else c
  "GUARD_SESSION_" ++ name ++ suffix

/-- The caller type of a declared entry, given the names declared before it. -/
def declaredCallerType (vars : Variables) (seen : List String) (entry : String) :
    Except SettingsError CallerType := do
  let (name, bindingText) := declaration entry
  let binding ← (Binding.parse bindingText).mapError fun unknown =>
    .invalid callerTypesVariable (.unknownBinding unknown)
  if name.isEmpty || seen.contains name then
    throw (.invalid callerTypesVariable (.emptyOrDuplicate name))
  let templateVariable := callerVariable name "_KEY_TEMPLATE"
  let keyTemplate := textOr vars templateVariable Key.defaultTemplate
  (Key.validateTemplate keyTemplate).mapError fun e => .invalid templateVariable (.template e)
  let ttlVariable := callerVariable name "_TTL_SECS"
  let ttlSecs ← (vars ttlVariable).mapM (readVariable ttlVariable numberVariable)
  let sliding ← variableOr vars (callerVariable name "_SLIDING") readFlag false
  return { name, binding, ttlSecs, keyTemplate, sliding }

/-- The caller types of declared entries, given the names declared before them. -/
def declaredCallerTypes (vars : Variables) :
    List String → List String → Except SettingsError (List CallerType)
  | _, [] => .ok []
  | seen, entry :: more => do
    let callerType ← declaredCallerType vars seen entry
    return callerType :: (← declaredCallerTypes vars (callerType.name :: seen) more)

/-- All caller types; there has to be one. -/
def readCallerTypes (vars : Variables) : Except SettingsError (List CallerType) := do
  let declared := textOr vars callerTypesVariable "console:principal"
  let callerTypes ← declaredCallerTypes vars [] (splitList declared)
  if callerTypes.isEmpty then throw (.invalid callerTypesVariable .noCallerType)
  return callerTypes

/-- The cipher's settings. The key has to be there, and may be blank but not empty. -/
def readCipher (vars : Variables) : Except SettingsError CipherSettings := do
  let algorithm ← variableOr vars "GUARD_CIPHER_ALGORITHM"
    (fun text => (Token.Algorithm.parse text).mapError .algorithm) .aes256
  match vars "GUARD_CIPHER_KEY" with
  | some key =>
    if key.isEmpty then throw (.missing "GUARD_CIPHER_KEY") else return { algorithm, key }
  | none => throw (.missing "GUARD_CIPHER_KEY")

/-- The places of credentials. -/
def readCarrier (vars : Variables) : Session.Carrier :=
  let standard := Session.Carrier.standard
  { tokenHeader := textOr vars "GUARD_TOKEN_HEADER" standard.tokenHeader
    tokenParam := textOr vars "GUARD_TOKEN_PARAM" standard.tokenParam
    deviceHeader := textOr vars "GUARD_DEVICE_HEADER" standard.deviceHeader
    userIdHeader := textOr vars "GUARD_USER_ID_HEADER" standard.userIdHeader
    loginPath := textOr vars "GUARD_LOGIN_PATH" standard.loginPath }

/-- The settings of locks. -/
def readLock (vars : Variables) : Except SettingsError LockSettings := do
  let standard := LockSettings.standard
  let waitMs ← variableOr vars "GUARD_LOCK_WAIT_MS" numberVariable standard.waitMs
  let leaseMs ← variableOr vars "GUARD_LOCK_LEASE_MS" numberVariable standard.leaseMs
  let kind ← variableOr vars "GUARD_LOCK_KIND"
    (fun text => (Lock.Kind.parse text).mapError .lockKind) standard.kind
  return { waitMs, leaseMs, kind,
           keyPrefix := textOr vars "GUARD_LOCK_KEY_PREFIX" standard.keyPrefix,
           ignoredTypes := ((vars "GUARD_LOCK_IGNORED_TYPES").map splitList).getD [] }

/-- Settings from variables. -/
def ofVariables (vars : Variables) : Except SettingsError Settings := do
  let cipher ← readCipher vars
  let lock ← readLock vars
  let callerTypes ← readCallerTypes vars
  return { redisUrl := textOr vars "REDIS_URL" "redis://localhost:6379", cipher,
           carrier := readCarrier vars, callerTypes, lock }

end Settings
end Turnstile
