import Mathlib.Data.List.Nodup
import Turnstile.Proofs.Settings.Acceptance

/-!
# Identity domains

The session keys of a caller type are its domain in the store. Under the default template a key has
the name of the caller type up to its second colon, since no name that is read from variables holds
a colon, and the binding key behind it, colons and braces included. So different caller types have
disjoint domains.
-/

namespace Turnstile.Settings

/-- A text is cut at its first colon in one way only. -/
theorem eq_of_append_colon {name name' : List Char} {rest rest' : List Char} (h : ':' ∉ name)
    (h' : ':' ∉ name') (heq : name ++ ':' :: rest = name' ++ ':' :: rest') :
    name = name' ∧ rest = rest' := by
  have hcut := Text.cutAt?_append h rest
  rw [heq, Text.cutAt?_append h' rest'] at hcut
  exact ⟨(Prod.mk.inj (Option.some.inj hcut)).1.symm, (Prod.mk.inj (Option.some.inj hcut)).2.symm⟩

/-- Under the default template, names without colons and places for binding keys are told from the
session key, and binding keys as well. -/
theorem eq_of_sessionKey_default {name name' x y : String}
    (hplace : ¬Key.idPlaceholder <:+: name.toList) (hplace' : ¬Key.idPlaceholder <:+: name'.toList)
    (hcolon : ':' ∉ name.toList) (hcolon' : ':' ∉ name'.toList)
    (heq : Key.sessionKey Key.defaultTemplate name x = Key.sessionKey Key.defaultTemplate name' y) :
    name = name' ∧ x = y := by
  rw [Key.sessionKey_default hplace, Key.sessionKey_default hplace'] at heq
  have hchars := congrArg String.toList heq
  simp only [String.toList_append, List.append_assoc, List.append_cancel_left_eq] at hchars
  obtain ⟨hname, hkey⟩ := eq_of_append_colon hcolon hcolon' hchars
  exact ⟨String.toList_injective hname, String.toList_injective hkey⟩

/-- Two caller types that are read from variables have a session key in common only if they are the
same one and the binding keys are the same, if both use the default template and neither name holds
a place for a binding key. -/
theorem default_domains_disjoint {vars : Variables} {s : Settings} (h : ofVariables vars = .ok s)
    {c d : CallerType} (hc : c ∈ s.callerTypes) (hd : d ∈ s.callerTypes)
    (htemplate : c.keyTemplate = Key.defaultTemplate)
    (htemplate' : d.keyTemplate = Key.defaultTemplate)
    (hplace : ¬Key.idPlaceholder <:+: c.name.toList)
    (hplace' : ¬Key.idPlaceholder <:+: d.name.toList) (x y : String) :
    c.sessionKey x = d.sessionKey y ↔ c = d ∧ x = y := by
  constructor
  · intro heq
    obtain ⟨hdeclared, -, hdistinct⟩ := readCallerTypes_eq_ok_iff.mp (parts_of_ofVariables h).2
    have hcolon {c : CallerType} (hc : c ∈ s.callerTypes) : ':' ∉ c.name.toList := by
      obtain ⟨entry, -, hdeclares⟩ := exists_entry hdeclared hc
      exact hdeclares.name ▸ colon_not_mem_entryName
    rw [CallerType.sessionKey, CallerType.sessionKey, htemplate, htemplate'] at heq
    obtain ⟨hname, hkey⟩ := eq_of_sessionKey_default hplace hplace' (hcolon hc) (hcolon hd) heq
    exact ⟨List.inj_on_of_nodup_map hdistinct hc hd hname, hkey⟩
  · rintro ⟨rfl, rfl⟩
    rfl

/-- Two caller types, one of them with a place for a caller type in its name. -/
def twoDomains : Variables := fun name =>
  if name = "GUARD_CIPHER_KEY" then some "k"
  else if name = "GUARD_CALLER_TYPES" then some "a, a\x7btype\x7d :device"
  else none

/-- Binding keys may begin with colons and look like places in a template. -/
theorem default_domains_disjoint_of_colons :
    let c : CallerType := .ofName "a" .principal
    let d : CallerType := .ofName "a\x7btype\x7d" .device
    (∃ s, ofVariables twoDomains = .ok s ∧ c ∈ s.callerTypes ∧ d ∈ s.callerTypes) ∧
      ¬Key.idPlaceholder <:+: c.name.toList ∧ ¬Key.idPlaceholder <:+: d.name.toList ∧
      c.sessionKey "\x7btype\x7d:\x7bid\x7d" ≠ d.sessionKey ":\x7bid\x7d" := by
  intro c d
  have hread : ofVariables twoDomains = .ok
      ⟨"redis://localhost:6379", ⟨.aes256, "k"⟩, .standard, [c, d], .standard⟩ := by decide +kernel
  have hplace : ¬Key.idPlaceholder <:+: c.name.toList := by decide
  have hplace' : ¬Key.idPlaceholder <:+: d.name.toList := by decide
  have hc : c ∈ [c, d] := List.mem_cons_self
  have hd : d ∈ [c, d] := List.mem_cons_of_mem c List.mem_cons_self
  refine ⟨⟨_, hread, hc, hd⟩, hplace, hplace', fun heq => ?_⟩
  have hsame := (default_domains_disjoint hread hc hd rfl rfl hplace hplace' _ _).mp heq
  exact absurd hsame.2 (by decide)

end Turnstile.Settings
