import Turnstile.Key.Operation
import Turnstile.Proofs.Text.Replacement

/-!
# Session keys by template

A template with a place for the binding key keeps it whatever caller type is filled in first: the
two placeholders cannot overlap. So the binding key can be told from the session key, even if the
caller type brings in more places for it.
-/

namespace Turnstile.Key

/-- A template is accepted if it has a place for the binding key. -/
theorem validateTemplate_eq_ok_iff {template : String} :
    validateTemplate template = .ok () ↔ idPlaceholder <:+: template.toList := by
  rw [← Text.occursIn_iff, validateTemplate]
  split <;> simp_all

/-- Filling in a caller type leaves the places for the binding key. -/
theorem idPlaceholder_infix_replaceAll {template : List Char} (h : idPlaceholder <:+: template)
    (callerType : List Char) :
    idPlaceholder <:+: Text.replaceAll typePlaceholder callerType template :=
  Text.infix_replaceAll (by decide) (by decide) (by decide) (by decide) callerType h

/-- Under a template that is accepted, the binding keys of a caller type have different session
keys. -/
theorem sessionKey_injective {template : String} (h : validateTemplate template = .ok ())
    (callerType : String) : Function.Injective (sessionKey template callerType) := by
  intro x y hxy
  have hin := idPlaceholder_infix_replaceAll (validateTemplate_eq_ok_iff.mp h) callerType.toList
  have hjoined := String.ofList_injective hxy
  exact String.toList_injective (Text.replaceAll_injective (by decide) hin hjoined)

/-- The caller type may itself look like the place for a binding key. -/
theorem sessionKey_injective_of_placeholder :
    validateTemplate defaultTemplate = .ok () ∧
      Function.Injective (sessionKey defaultTemplate "\x7bid\x7d") :=
  have h : validateTemplate defaultTemplate = .ok () := by decide
  ⟨h, sessionKey_injective h "\x7bid\x7d"⟩

/-- Under the default template, a caller type whose name is no place for a binding key stands in
front of the binding key. -/
theorem sessionKey_default {callerType : String} (h : ¬idPlaceholder <:+: callerType.toList)
    (bindingKey : String) : sessionKey defaultTemplate callerType bindingKey =
      "session:" ++ callerType ++ ":" ++ bindingKey := by
  have htype : Text.replaceAll typePlaceholder callerType.toList defaultTemplate.toList =
      "session".toList ++ ':' :: (callerType.toList ++ ':' :: idPlaceholder) := by
    have hpieces : Text.pieces typePlaceholder defaultTemplate.toList =
        ["session:".toList, ':' :: idPlaceholder] := by decide
    rw [Text.replaceAll, hpieces]
    simp
  have hid : Text.pieces idPlaceholder
      ("session".toList ++ ':' :: (callerType.toList ++ ':' :: idPlaceholder)) =
      [("session:" ++ callerType ++ ":").toList, []] := by
    rw [Text.pieces, idPlaceholder, Text.piecesFrom_append_cons (by decide) (by decide),
      Text.piecesFrom_append_cons (by decide) h]
    simp [Text.piecesFrom]
  rw [sessionKey, htype, Text.replaceAll, hid]
  apply String.toList_injective
  simp

end Turnstile.Key
