import Turnstile.Proofs.Json.Written
import Turnstile.Settings.Document
import Turnstile.Settings.Variables

/-!
# Settings in documents

Settings are read back from the document that they are written as, record by record. That document
has a form of its own: the records are objects, all fields are there, in one order, and nothing
else. A document that is read may have many others, and variables have none, but what is read of
them is written in that one form, and read again as what it was.
-/

namespace Turnstile

open Json (Value)
open Json.Reader
open Json.RecordLayout (Fills)

/-- The written form of a caller type holds no doubles. -/
theorem CallerType.realFree (c : CallerType) : c.toValue.RealFree := by
  have hmembers {ttl : Value} (httl : ttl.RealFree) : (Value.object [
      ("name", .string c.name), ("binding", .string c.binding.name), ("ttl_secs", ttl),
      ("key_template", .string c.keyTemplate), ("sliding", .bool c.sliding)]).RealFree :=
    ⟨trivial, trivial, httl, trivial, trivial, trivial⟩
  unfold toValue
  cases c.ttlSecs with
  | none => exact @hmembers .null trivial
  | some secs =>
    dsimp only
    generalize hsecs : Value.ofInt secs.toNat = ttl
    exact hmembers (Value.realFree_of_ofInt hsecs)

theorem CallerType.readsBack (c : CallerType) (depth : Nat) :
    ReadsBack (CallerType.layout.read (depth + 1)) c.toValue c := by
  have hbinding : ReadsBack (oneOf ("principal", Binding.principal) ("device", .device) depth)
      (.string c.binding.name) c.binding := by
    have hchoice : c.binding = .principal ∨ c.binding = .device := by
      cases c.binding with
      | principal => exact .inl rfl
      | device => exact .inr rfl
    exact readsBack_oneOf Binding.name .principal .device (by decide) depth hchoice
  obtain ⟨name, binding, ttlSecs, keyTemplate, sliding⟩ := c
  have hfills {ttl : Value} (httl : ReadsBack (optional unsigned) ttl ttlSecs) :
      Fills depth CallerType.layout.fields CallerType.layout.blank [
        ("name", .string name), ("binding", .string binding.name), ("ttl_secs", ttl),
        ("key_template", .string keyTemplate), ("sliding", .bool sliding)]
        (.ok ⟨some name, some binding, some ttlSecs, some keyTemplate, some sliding⟩) :=
    .cons rfl (readsBack_text name) <| .cons rfl hbinding <| .cons rfl httl <|
      .cons rfl (readsBack_text keyTemplate) <| .cons rfl (readsBack_flag sliding) <| .nil _
  cases ttlSecs with
  | none => exact (hfills (readsBack_none unsigned)).readsBack (by decide) rfl
  | some secs => exact (hfills (readsBack_some_unsigned secs)).readsBack (by decide) rfl

theorem Session.Carrier.readsBack (c : Session.Carrier) (depth : Nat) :
    ReadsBack (Session.Carrier.layout.read (depth + 1)) c.toValue c := by
  have hfills : Fills depth Session.Carrier.layout.fields Session.Carrier.layout.blank [
      ("token_header", .string c.tokenHeader), ("token_param", .string c.tokenParam),
      ("device_header", .string c.deviceHeader), ("user_id_header", .string c.userIdHeader),
      ("login_path", .string c.loginPath)]
      (.ok ⟨some c.tokenHeader, some c.tokenParam, some c.deviceHeader, some c.userIdHeader,
        some c.loginPath⟩) :=
    .cons rfl (readsBack_text _) <| .cons rfl (readsBack_text _) <|
      .cons rfl (readsBack_text _) <| .cons rfl (readsBack_text _) <|
      .cons rfl (readsBack_text _) <| .nil _
  exact hfills.readsBack (by decide) rfl

theorem LockSettings.readsBack (l : LockSettings) (depth : Nat) :
    ReadsBack (LockSettings.layout.read (depth + 2)) l.toValue l := by
  have hkind : ReadsBack (oneOf ("exclusive", Lock.Kind.exclusive) ("fair", .fair) (depth + 1))
      (.string l.kind.name) l.kind := by
    have hchoice : l.kind = .exclusive ∨ l.kind = .fair := by
      cases l.kind with
      | exclusive => exact .inl rfl
      | fair => exact .inr rfl
    exact readsBack_oneOf Lock.Kind.name .exclusive .fair (by decide) (depth + 1) hchoice
  have htypes : ReadsBack (list (fun _ => text) (depth + 1)) (.array (l.ignoredTypes.map .string))
      l.ignoredTypes :=
    readsBack_list (fun _ _ => trivial) fun name _ => readsBack_text name
  have hfills : Fills (depth + 1) LockSettings.layout.fields LockSettings.layout.blank [
      ("wait_ms", .ofInt l.waitMs.toNat), ("lease_ms", .ofInt l.leaseMs.toNat),
      ("kind", .string l.kind.name), ("key_prefix", .string l.keyPrefix),
      ("ignored_types", .array (l.ignoredTypes.map .string))]
      (.ok ⟨some l.waitMs, some l.leaseMs, some l.kind, some l.keyPrefix, some l.ignoredTypes⟩) :=
    .cons rfl (readsBack_unsigned _) <| .cons rfl (readsBack_unsigned _) <| .cons rfl hkind <|
      .cons rfl (readsBack_text _) <| .cons rfl htypes <| .nil _
  exact hfills.readsBack (by decide) rfl

theorem CipherSettings.readsBack (c : CipherSettings) (depth : Nat) :
    ReadsBack (CipherSettings.layout.read (depth + 1)) c.toValue c := by
  have halgorithm : ReadsBack (oneOf (Token.Algorithm.aes256.name, .aes256)
      (Token.Algorithm.aes128.name, .aes128) depth) (.string c.algorithm.name) c.algorithm := by
    have hchoice : c.algorithm = .aes256 ∨ c.algorithm = .aes128 := by
      cases c.algorithm with
      | aes256 => exact .inl rfl
      | aes128 => exact .inr rfl
    exact readsBack_oneOf Token.Algorithm.name .aes256 .aes128 (by decide) depth hchoice
  have hfills : Fills depth CipherSettings.layout.fields CipherSettings.layout.blank [
      ("algorithm", .string c.algorithm.name), ("key", .string c.key)]
      (.ok ⟨some c.algorithm, some c.key⟩) :=
    .cons rfl halgorithm <| .cons rfl (readsBack_text _) <| .nil _
  exact hfills.readsBack (by decide) rfl

namespace Settings

theorem readsBack (s : Settings) (depth : Nat) :
    ReadsBack (Settings.layout.read (depth + 3)) s.toValue s := by
  have hcallers : ReadsBack (list CallerType.layout.read (depth + 2))
      (.array (s.callerTypes.map CallerType.toValue)) s.callerTypes :=
    readsBack_list (fun c _ => c.realFree) fun c _ => c.readsBack depth
  have hfills : Fills (depth + 2) Settings.layout.fields Settings.layout.blank [
      ("redis_url", .string s.redisUrl), ("cipher", s.cipher.toValue),
      ("carrier", s.carrier.toValue),
      ("caller_types", .array (s.callerTypes.map CallerType.toValue)),
      ("lock", s.lock.toValue)]
      (.ok ⟨some s.redisUrl, some s.cipher, some s.carrier, some s.callerTypes, some s.lock⟩) :=
    .cons rfl (readsBack_text _) <| .cons rfl (s.cipher.readsBack _) <|
      .cons rfl (s.carrier.readsBack _) <| .cons rfl hcallers <|
      .cons rfl (s.lock.readsBack _) <| .nil _
  exact hfills.readsBack (by decide) rfl

/-- All settings are read back from the document that they are written as. -/
theorem parse_toValue (s : Settings) : Settings.parse s.toValue.toBytes = .ok s :=
  document_of_readsBack (s.readsBack 124)

/-- Settings that come from a document, however that is written, or from variables are read back
from the document that they are written as, and no other settings are written in the same way. -/
theorem reread_written (s : Settings) :
    (∀ document, Settings.parse document = .ok s → Settings.parse s.toValue.toBytes = .ok s) ∧
    (∀ vars, ofVariables vars = .ok s → Settings.parse s.toValue.toBytes = .ok s) ∧
    ∀ t : Settings, t.toValue.toBytes = s.toValue.toBytes ↔ t = s := by
  refine ⟨fun _ _ => s.parse_toValue, fun _ _ => s.parse_toValue, fun t => ?_⟩
  constructor
  · intro hsame
    have hread := t.parse_toValue
    rw [hsame, s.parse_toValue] at hread
    exact (Except.ok.inj hread).symm
  · rintro rfl
    rfl

/-- A document with records as arrays and as objects, whose members are in another order, with
members that are unknown, and without those that have a default. -/
def unusual : Bytes := Bytes.ofText <|
  "\x7b\"lock\": [0, 18446744073709551615, \"fair\", \"\\u006c:\"], \"x\": [1, \x7b\"y\": null\x7d], " ++
  "\"redis_url\": \"redis://h\", \"cipher\": \x7b\"key\": \"\"\x7d, \"caller_types\": [" ++
  "[\"a\", \"device\", null], \x7b\"ttl_secs\": 0, \"name\": \"a\", \"z\": 1\x7d, " ++
  "\x7b\"ttl_secs\": null, \"binding\": \x7b\"device\": null\x7d, \"name\": \"\\n\"\x7d]\x7d"

/-- An unusual document is read, and what it says is read again. -/
theorem reread_written_of_unusual : ∃ s, Settings.parse unusual = .ok s ∧
    s.callerTypes.map (·.ttlSecs) = [none, some 0, none] ∧
    Settings.parse s.toValue.toBytes = .ok s := by
  have hread : Settings.parse unusual = .ok {
      redisUrl := "redis://h"
      cipher := ⟨.aes256, ""⟩
      carrier := .standard
      callerTypes := [.ofName "a" .device, { CallerType.ofName "a" .principal with ttlSecs := some 0 },
        .ofName "\n" .device]
      lock := ⟨0, 18446744073709551615, .fair, "l:", []⟩ } :=
    Text.eq_ok_of_toOption (by decide +kernel)
  exact ⟨_, hread, rfl, (reread_written _).1 unusual hread⟩

end Settings
end Turnstile
