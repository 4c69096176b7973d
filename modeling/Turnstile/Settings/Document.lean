import Turnstile.Settings.Basic
import Turnstile.Json.Record

/-!
# Settings from a JSON document

A document has the form in which settings are written. Fields with a default may be
left out. What the variables are checked for is not checked here.
-/

namespace Turnstile

open Json (RecordLayout ReadError)
open Json.Reader (text flag unsigned optional list oneOf)

namespace CallerType

/-- The fields of a caller type that have been read. -/
structure Draft where
  name : Option String
  binding : Option Binding
  ttlSecs : Option (Option UInt64)
  keyTemplate : Option String
  sliding : Option Bool

/-- How a caller type is read. -/
def layout : RecordLayout Draft CallerType where
  name := "CallerTypeSettings"
  fields := [
    .of "name" false (·.name) (fun d x => { d with name := some x }) fun _ => text,
    .of "binding" true (·.binding) (fun d x => { d with binding := some x })
      (oneOf ("principal", .principal) ("device", .device)),
    .of "ttl_secs" true (·.ttlSecs) (fun d x => { d with ttlSecs := some x })
      fun _ => optional unsigned,
    .of "key_template" true (·.keyTemplate) (fun d x => { d with keyTemplate := some x })
      fun _ => text,
    .of "sliding" true (·.sliding) (fun d x => { d with sliding := some x }) fun _ => flag]
  blank := ⟨none, none, none, none, none⟩
  finish d := do
    return { name := ← Json.required "name" d.name,
             binding := d.binding.getD .principal,
             ttlSecs := d.ttlSecs.getD none,
             keyTemplate := d.keyTemplate.getD Key.defaultTemplate,
             sliding := d.sliding.getD false }

end CallerType

namespace Session.Carrier

/-- The places of credentials that have been read. -/
structure Draft where
  tokenHeader : Option String
  tokenParam : Option String
  deviceHeader : Option String
  userIdHeader : Option String
  loginPath : Option String

/-- How the places of credentials are read. -/
def layout : RecordLayout Draft Carrier where
  name := "CarrierSettings"
  fields := [
    .of "token_header" false (·.tokenHeader) (fun d x => { d with tokenHeader := some x })
      fun _ => text,
    .of "token_param" false (·.tokenParam) (fun d x => { d with tokenParam := some x })
      fun _ => text,
    .of "device_header" false (·.deviceHeader) (fun d x => { d with deviceHeader := some x })
      fun _ => text,
    .of "user_id_header" false (·.userIdHeader) (fun d x => { d with userIdHeader := some x })
      fun _ => text,
    .of "login_path" false (·.loginPath) (fun d x => { d with loginPath := some x })
      fun _ => text]
  blank := ⟨none, none, none, none, none⟩
  finish d := do
    let tokenHeader ← Json.required "token_header" d.tokenHeader
    let tokenParam ← Json.required "token_param" d.tokenParam
    let deviceHeader ← Json.required "device_header" d.deviceHeader
    let userIdHeader ← Json.required "user_id_header" d.userIdHeader
    let loginPath ← Json.required "login_path" d.loginPath
    return { tokenHeader, tokenParam, deviceHeader, userIdHeader, loginPath }

end Session.Carrier

namespace LockSettings

/-- The settings of locks that have been read. -/
structure Draft where
  waitMs : Option UInt64
  leaseMs : Option UInt64
  kind : Option Lock.Kind
  keyPrefix : Option String
  ignoredTypes : Option (List String)

/-- How the settings of locks are read. -/
def layout : RecordLayout Draft LockSettings where
  name := "LockSettings"
  fields := [
    .of "wait_ms" false (·.waitMs) (fun d x => { d with waitMs := some x }) fun _ => unsigned,
    .of "lease_ms" false (·.leaseMs) (fun d x => { d with leaseMs := some x }) fun _ => unsigned,
    .of "kind" true (·.kind) (fun d x => { d with kind := some x })
      (oneOf ("exclusive", .exclusive) ("fair", .fair)),
    .of "key_prefix" false (·.keyPrefix) (fun d x => { d with keyPrefix := some x })
      fun _ => text,
    .of "ignored_types" true (·.ignoredTypes) (fun d x => { d with ignoredTypes := some x })
      (list fun _ => text)]
  blank := ⟨none, none, none, none, none⟩
  finish d := do
    let waitMs ← Json.required "wait_ms" d.waitMs
    let leaseMs ← Json.required "lease_ms" d.leaseMs
    let keyPrefix ← Json.required "key_prefix" d.keyPrefix
    return { waitMs, leaseMs, kind := d.kind.getD .exclusive, keyPrefix,
             ignoredTypes := d.ignoredTypes.getD [] }

end LockSettings

namespace CipherSettings

/-- The settings of the cipher that have been read. -/
structure Draft where
  algorithm : Option Token.Algorithm
  key : Option String

/-- How the settings of the cipher are read. -/
def layout : RecordLayout Draft CipherSettings where
  name := "CipherSettings"
  fields := [
    .of "algorithm" true (·.algorithm) (fun d x => { d with algorithm := some x })
      (oneOf (Token.Algorithm.aes256.name, .aes256) (Token.Algorithm.aes128.name, .aes128)),
    .of "key" false (·.key) (fun d x => { d with key := some x }) fun _ => text]
  blank := ⟨none, none⟩
  finish d := do
    return { algorithm := d.algorithm.getD .aes256, key := ← Json.required "key" d.key }

end CipherSettings

namespace Settings

/-- The settings that have been read. -/
structure Draft where
  redisUrl : Option String
  cipher : Option CipherSettings
  carrier : Option Session.Carrier
  callerTypes : Option (List CallerType)
  lock : Option LockSettings

/-- How settings are read. -/
def layout : RecordLayout Draft Settings where
  name := "Settings"
  fields := [
    .of "redis_url" false (·.redisUrl) (fun d x => { d with redisUrl := some x }) fun _ => text,
    .of "cipher" false (·.cipher) (fun d x => { d with cipher := some x })
      CipherSettings.layout.read,
    .of "carrier" true (·.carrier) (fun d x => { d with carrier := some x })
      Session.Carrier.layout.read,
    .of "caller_types" false (·.callerTypes) (fun d x => { d with callerTypes := some x })
      (list CallerType.layout.read),
    .of "lock" true (·.lock) (fun d x => { d with lock := some x }) LockSettings.layout.read]
  blank := ⟨none, none, none, none, none⟩
  finish d := do
    let redisUrl ← Json.required "redis_url" d.redisUrl
    let cipher ← Json.required "cipher" d.cipher
    let callerTypes ← Json.required "caller_types" d.callerTypes
    return { redisUrl, cipher, carrier := d.carrier.getD .standard, callerTypes,
             lock := d.lock.getD .standard }

/-- Settings from JSON text. -/
def parse (document : Bytes) : Except ReadError Settings := layout.parse document

end Settings
end Turnstile
