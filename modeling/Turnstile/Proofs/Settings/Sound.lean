import Mathlib.Data.List.Induction
import Turnstile.Proofs.Settings.Acceptance
import Turnstile.Proofs.Settings.Documents
import Turnstile.Session.Repository

/-!
# Sound settings

Settings are sound if there is key material, and caller types whose names tell them apart and whose
templates tell binding keys apart. Variables are checked for that and yield nothing else. A document
is not: any settings at all are read back from the document that they are written as. With names
that tell caller types apart, it does not matter that the settings look for the first of a name
and a repository for the last.
-/

namespace Turnstile

namespace Settings

/-- What the settings of a node have to meet. -/
structure Sound (s : Settings) : Prop where
  key : s.cipher.key ≠ ""
  nonempty : s.callerTypes ≠ []
  named : ∀ c ∈ s.callerTypes, c.name ≠ ""
  distinct : (s.callerTypes.map (·.name)).Nodup
  templates : ∀ c ∈ s.callerTypes, Key.idPlaceholder <:+: c.keyTemplate.toList

/-! ## Settings from variables -/

/-- Settings that are read from variables are sound. -/
theorem sound_of_ofVariables {vars : Variables} {s : Settings} (h : ofVariables vars = .ok s) :
    s.Sound := by
  obtain ⟨hcipher, hcallers⟩ := parts_of_ofVariables h
  obtain ⟨hdeclared, hsome, hdistinct⟩ := readCallerTypes_eq_ok_iff.mp hcallers
  have heach (c : CallerType) (hc : c ∈ s.callerTypes) :
      c.name ≠ "" ∧ Key.idPlaceholder <:+: c.keyTemplate.toList := by
    obtain ⟨entry, -, hdeclares⟩ := exists_entry hdeclared hc
    exact ⟨hdeclares.named, hdeclares.placeholder⟩
  exact {
    key := (readCipher_eq_ok_iff.mp hcipher).1.2
    nonempty := hsome
    named := fun c hc => (heach c hc).1
    distinct := hdistinct
    templates := fun c hc => (heach c hc).2 }

/-! ## Looking a caller type up -/

/-- A table of a list has the last entry of each key. -/
theorem get?_ofList {α : Type} (entries : List (String × α)) (key : String) :
    (Table.ofList entries).get? key =
      ((entries.filter (·.1 = key)).getLast?).map (·.2) := by
  unfold Table.ofList
  induction entries using List.reverseRecOn with
  | nil => rfl
  | append_singleton front last ih =>
    rw [List.foldl_append, List.foldl_cons, List.foldl_nil, Table.get?_insert, List.filter_append]
    by_cases hk : last.1 = key
    · simp [hk]
    · simp [hk, ih]

/-- A repository has the last caller type of a name. -/
theorem callerType?_ofCallerTypes (cipher : Token.Cipher) (callerTypes : List CallerType)
    (name : String) : (Session.Repository.ofCallerTypes cipher callerTypes).callerType? name =
      (callerTypes.filter (·.name = name)).getLast? := by
  rw [Session.Repository.callerType?, Session.Repository.ofCallerTypes, get?_ofList,
    List.filter_map, List.getLast?_map, Option.map_map]
  exact Option.map_id'

/-- Of distinct names there is one caller type at most, so that the first one is the last one. -/
theorem head?_eq_getLast? {callerTypes : List CallerType}
    (h : (callerTypes.map (·.name)).Nodup) (name : String) :
    (callerTypes.filter (·.name = name)).head? = (callerTypes.filter (·.name = name)).getLast? := by
  induction callerTypes with
  | nil => rfl
  | cons c callerTypes ih =>
    obtain ⟨hfirst, hmore⟩ := List.nodup_cons.1 h
    by_cases hname : c.name = name
    · have hnone : callerTypes.filter (·.name = name) = [] := by
        rw [List.filter_eq_nil_iff]
        intro other hother heq
        have hsame : other.name = c.name := (of_decide_eq_true heq).trans hname.symm
        exact hfirst (List.mem_map.2 ⟨other, hother, hsame⟩)
      rw [List.filter_cons_of_pos (by simpa using hname), hnone]
      rfl
    · rw [List.filter_cons_of_neg (by simpa using hname)]
      exact ih hmore

/-- Variables yield sound settings, documents any settings at all. Whatever the settings are, they
are read back from the document that they are written as, so that nothing which variables are
checked for holds of all documents. The settings look a name up from the front of the caller types,
a repository from the end, and both find the same for every name exactly if the first caller type of
each name is also its last one, as it is if the names are distinct. -/
theorem sound_of_variables_only (s : Settings) (cipher : Token.Cipher) :
    let repository := Session.Repository.ofCallerTypes cipher s.callerTypes
    let named (name : String) := s.callerTypes.filter (·.name = name)
    Settings.parse s.toValue.toBytes = .ok s ∧
    (∀ vars, ofVariables vars = .ok s → s.Sound) ∧
    ((∀ name, s.callerType? name = repository.callerType? name) ↔
      ∀ name, (named name).head? = (named name).getLast?) ∧
    (s.Sound → ∀ name, s.callerType? name = repository.callerType? name) := by
  have hfirst (name : String) :
      s.callerType? name = (s.callerTypes.filter (·.name = name)).head? := List.head?_filter.symm
  have hlast (name : String) := callerType?_ofCallerTypes cipher s.callerTypes name
  refine ⟨s.parse_toValue, fun _ h => sound_of_ofVariables h, forall_congr' fun name => ?agree,
    fun hsound name => ?sound⟩
  case agree => rw [hfirst, hlast]
  case sound =>
    rw [hfirst, hlast]
    exact head?_eq_getLast? hsound.distinct name

/-- No key material, one name for two caller types, and templates without a place for the binding
key. -/
def careless : Settings where
  redisUrl := "redis://h"
  cipher := ⟨.aes256, ""⟩
  carrier := .standard
  callerTypes := [⟨"c", .principal, none, "t", false⟩, ⟨"c", .principal, some 60, "t", false⟩]
  lock := .standard

/-- Careless settings are read from a document, and what they say of a caller type is not what a
repository goes by. -/
theorem careless_document :
    Settings.parse careless.toValue.toBytes = .ok careless ∧ ¬careless.Sound ∧
    ∀ cipher, careless.callerType? "c" ≠
      (Session.Repository.ofCallerTypes cipher careless.callerTypes).callerType? "c" := by
  refine ⟨parse_toValue careless, fun hsound => hsound.key rfl, fun cipher => ?_⟩
  rw [callerType?_ofCallerTypes]
  decide +kernel

end Settings
end Turnstile
