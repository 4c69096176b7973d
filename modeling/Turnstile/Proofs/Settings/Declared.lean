import Mathlib.Data.List.Forall2
import Turnstile.Proofs.Key.Templates
import Turnstile.Proofs.Settings.Meaning

/-!
# Declared caller types

The list of caller types consists of entries, each of which names a caller type and says how its
sessions are bound. A caller type has variables of its own, so it is read in two parts: what its
entry and its template say, and after that how long its sessions last and whether use renews them.
All entries together are read as the caller types that they declare one by one, in their order, if
the names are new.
-/

namespace Turnstile.Settings

variable {vars : Variables} {seen entries : List String} {entry : String} {c : CallerType}

/-! ## Entries -/

/-- A list has the parts between its commas as entries, trimmed and without the empty ones. -/
theorem splitList_eq (raw : String) : splitList raw =
    ((Text.splitAt ',' raw.toList).map fun part => Text.trim (String.ofList part)).filter (· ≠ "") := by
  rw [splitList, ← List.filterMap_eq_filter, List.filterMap_map]
  refine List.filterMap_congr fun part _ => ?_
  rw [Text.nonBlank?, Function.comp_apply, Option.guard]
  simp only [String.isEmpty_iff, decide_eq_true_eq, ite_not]

/-- An entry is trimmed and holds no commas. -/
theorem mem_splitList {raw : String} (h : entry ∈ splitList raw) :
    Text.Trimmed entry ∧ ',' ∉ entry.toList := by
  rw [splitList_eq] at h
  obtain ⟨part, hpart, rfl⟩ := List.mem_map.mp (List.mem_filter.mp h).1
  refine ⟨Text.trimmed_trim _, fun hcomma => ?_⟩
  have hin := Text.mem_of_mem_trim hcomma
  rw [String.toList_ofList] at hin
  exact Text.not_mem_of_mem_splitAt hpart hin

/-- The name in an entry: what stands before its first colon, or all of it. -/
def entryName (entry : String) : String :=
  Text.trim (String.ofList (entry.toList.takeWhile (· != ':')))

/-- The binding in an entry: what stands behind its first colon, or the principal. -/
def entryBinding (entry : String) : String :=
  if ':' ∈ entry.toList then String.ofList (entry.toList.dropWhile (· != ':')).tail
  else Binding.principal.name

/-- An entry is read as its name and its binding. -/
theorem declaration_eq (h : Text.Trimmed entry) :
    declaration entry = (entryName entry, Text.trim (entryBinding entry)) := by
  have hsplit := List.takeWhile_append_dropWhile (p := (· != ':')) (l := entry.toList)
  rw [declaration, Text.cutAt?, entryName, entryBinding]
  cases hback : entry.toList.dropWhile (· != ':') with
  | nil =>
    have hall : ∀ c ∈ entry.toList, (c != ':') = true := List.dropWhile_eq_nil_iff.mp hback
    have hcolon : ':' ∉ entry.toList := fun hin => absurd (hall _ hin) (by decide)
    have hprincipal : Text.trim Binding.principal.name = Binding.principal.name := by decide
    rw [hback, List.append_nil] at hsplit
    rw [if_neg hcolon, hsplit, String.ofList_toList, h.trim_eq, hprincipal]
  | cons c rest =>
    have hc : c = ':' := by
      have hfirst := List.head?_dropWhile_not (· != ':') entry.toList
      rw [hback] at hfirst
      simpa using hfirst
    have hcolon : ':' ∈ entry.toList := by
      rw [← hsplit, hback, hc]
      simp
    rw [if_pos hcolon]
    rfl

/-- No name holds a colon. -/
theorem colon_not_mem_entryName : ':' ∉ (entryName entry).toList := by
  intro hin
  have hfront := Text.mem_of_mem_trim hin
  rw [String.toList_ofList] at hfront
  exact absurd (List.mem_takeWhile_imp hfront) (by decide)

/-- A name is part of its entry. -/
theorem mem_of_mem_entryName {c : Char} (h : c ∈ (entryName entry).toList) :
    c ∈ entry.toList := by
  have hfront := Text.mem_of_mem_trim h
  rw [String.toList_ofList] at hfront
  exact (List.takeWhile_prefix _).subset hfront

/-! ## One caller type -/

/-- The variable with the template of a caller type. -/
def templateVariable (callerType : String) : String := callerVariable callerType "_KEY_TEMPLATE"

/-- The variable with the seconds that the sessions of a caller type last. -/
def ttlVariable (callerType : String) : String := callerVariable callerType "_TTL_SECS"

/-- The variable that says whether use renews the sessions of a caller type. -/
def slidingVariable (callerType : String) : String := callerVariable callerType "_SLIDING"

/-- What the entry and the template say of a caller type. -/
structure Begins (vars : Variables) (entry : String) (c : CallerType) : Prop where
  name : c.name = entryName entry
  named : c.name ≠ ""
  binding : NamesBinding (entryBinding entry) c.binding
  template : Says vars (templateVariable c.name) Eq Key.defaultTemplate c.keyTemplate
  placeholder : Key.idPlaceholder <:+: c.keyTemplate.toList

/-- An entry declares a caller type. A time that is given has to be a number, blank or not. -/
structure Declares (vars : Variables) (entry : String) (c : CallerType) : Prop
    extends Begins vars entry c where
  ttl : Option.Rel WritesNumber (vars (ttlVariable c.name)) c.ttlSecs
  sliding : Says vars (slidingVariable c.name) NamesFlag false c.sliding

/-- What a caller type begins with has no say in its time and in whether it slides. -/
theorem Begins.withRest (h : Begins vars entry c) (ttlSecs : Option UInt64) (sliding : Bool) :
    Begins vars entry { c with ttlSecs, sliding } :=
  ⟨h.name, h.named, h.binding, h.template, h.placeholder⟩

/-- What a caller type begins with, as it is read. -/
def beginning (vars : Variables) (seen : List String) (entry : String) :
    Except SettingsError CallerType := do
  let (name, bindingText) := declaration entry
  let binding ← (Binding.parse bindingText).mapError fun unknown =>
    .invalid callerTypesVariable (.unknownBinding unknown)
  if name.isEmpty || seen.contains name then
    throw (.invalid callerTypesVariable (.emptyOrDuplicate name))
  let keyTemplate := textOr vars (templateVariable name) Key.defaultTemplate
  (Key.validateTemplate keyTemplate).mapError fun e => .invalid (templateVariable name) (.template e)
  return { name, binding, ttlSecs := none, keyTemplate, sliding := false }

/-- The time of a caller type, and whether it slides, are read behind what it begins with. -/
theorem declaredCallerType_eq (vars : Variables) (seen : List String) (entry : String) :
    declaredCallerType vars seen entry = do
      let c ← beginning vars seen entry
      let ttlSecs ← (vars (ttlVariable c.name)).mapM
        (readVariable (ttlVariable c.name) numberVariable)
      let sliding ← variableOr vars (slidingVariable c.name) readFlag false
      return { c with ttlSecs, sliding } := by
  unfold declaredCallerType beginning templateVariable
  obtain ⟨name, bindingText⟩ := declaration entry
  dsimp only
  cases Binding.parse bindingText with
  | error unknown => rfl
  | ok binding =>
    dsimp only [Except.mapError, bind, Except.bind]
    split
    · rfl
    · generalize textOr vars (callerVariable name "_KEY_TEMPLATE") Key.defaultTemplate = template
      cases Key.validateTemplate template with
      | error e => rfl
      | ok => rfl

/-- What a caller type begins with is read if the entry says it, and the name is new. -/
theorem beginning_eq_ok_iff (h : Text.Trimmed entry) : beginning vars seen entry = .ok c ↔
    Begins vars entry c ∧ c.name ∉ seen ∧ c.ttlSecs = none ∧ c.sliding = false := by
  rw [beginning, declaration_eq h]
  dsimp only
  rw [Text.except_bind_eq_ok_iff]
  constructor
  · rintro ⟨binding, hbinding, hread⟩
    split at hread
    · obtain ⟨_, hrefused, -⟩ := Text.except_bind_eq_ok hread
      cases hrefused
    · rename_i hnew
      obtain ⟨_, htemplate, hread⟩ := Text.except_bind_eq_ok hread
      obtain rfl := Except.ok.inj hread
      simp only [Bool.or_eq_true, List.contains_iff_mem, not_or, String.isEmpty_iff] at hnew
      exact ⟨{
        name := rfl
        named := hnew.1
        binding := parseBinding_eq_ok_iff.mp (mapError_eq_ok_iff.mp hbinding)
        template := textOr_eq_iff.mp rfl
        placeholder := Key.validateTemplate_eq_ok_iff.mp (mapError_eq_ok_iff.mp htemplate)
      }, hnew.2, rfl, rfl⟩
  · rintro ⟨hbegins, hnew, httl, hsliding⟩
    have hbinding := parseBinding_eq_ok_iff.mpr hbegins.binding
    have htemplate := textOr_eq_iff.mpr hbegins.template
    have hvalid := Key.validateTemplate_eq_ok_iff.mpr hbegins.placeholder
    refine ⟨c.binding, mapError_eq_ok_iff.mpr hbinding, ?_⟩
    have hok : ¬(c.name.isEmpty || seen.contains c.name) = true := by
      simpa using ⟨hbegins.named, hnew⟩
    rw [← hbegins.name, if_neg hok, htemplate, hvalid]
    obtain ⟨name, binding, ttlSecs, keyTemplate, sliding⟩ := c
    cases httl
    cases hsliding
    rfl

/-- A time that is given is read if it is a number. -/
theorem mapM_readVariable_eq_ok_iff {given : Option String} {name : String} {ttl : Option UInt64} :
    given.mapM (readVariable name numberVariable) = .ok ttl ↔
      Option.Rel WritesNumber given ttl := by
  cases given with
  | none =>
    constructor
    · rintro ⟨⟩
      exact .none
    · rintro ⟨⟩
      rfl
  | some raw =>
    have hmeans (n : UInt64) : readVariable name numberVariable raw = .ok n ↔ WritesNumber raw n :=
      mapError_eq_ok_iff.trans numberVariable_eq_ok_iff
    rw [Option.mapM_some, map_eq_pure_bind, Text.bind_pure_eq_ok_iff]
    constructor
    · rintro ⟨n, hn, rfl⟩
      exact .some ((hmeans n).mp hn)
    · rintro (hn | _)
      exact ⟨_, (hmeans _).mpr hn, rfl⟩

/-- A caller type is read if its entry declares it, and the name is new. -/
theorem declaredCallerType_eq_ok_iff (h : Text.Trimmed entry) :
    declaredCallerType vars seen entry = .ok c ↔ Declares vars entry c ∧ c.name ∉ seen := by
  rw [declaredCallerType_eq, Text.except_bind_eq_ok_iff]
  constructor
  · rintro ⟨begun, hbegun, hread⟩
    obtain ⟨hbegins, hnew, -, -⟩ := (beginning_eq_ok_iff h).mp hbegun
    obtain ⟨ttlSecs, httl, hread⟩ := Text.except_bind_eq_ok hread
    obtain ⟨sliding, hsliding, hread⟩ := Text.except_bind_eq_ok hread
    obtain rfl := Except.ok.inj hread
    exact ⟨{
      hbegins.withRest ttlSecs sliding with
      ttl := mapM_readVariable_eq_ok_iff.mp httl
      sliding := (variableOr_eq_ok_iff readFlag_eq_ok_iff).mp hsliding
    }, hnew⟩
  · rintro ⟨hdeclares, hnew⟩
    refine ⟨{ c with ttlSecs := none, sliding := false }, ?begun, ?rest⟩
    case begun =>
      exact (beginning_eq_ok_iff h).mpr ⟨hdeclares.toBegins.withRest none false, hnew, rfl, rfl⟩
    case rest =>
      rw [Text.except_bind_eq_ok_iff]
      refine ⟨c.ttlSecs, ?_, ?_⟩
      · exact mapM_readVariable_eq_ok_iff.mpr hdeclares.ttl
      · rw [Text.except_bind_eq_ok_iff]
        exact ⟨c.sliding, (variableOr_eq_ok_iff readFlag_eq_ok_iff).mpr hdeclares.sliding, rfl⟩

/-! ## All caller types -/

/-- Caller types are read if the entries declare them one by one, and all names are new. -/
theorem declaredCallerTypes_eq_ok_iff {callerTypes : List CallerType}
    (h : ∀ entry ∈ entries, Text.Trimmed entry) :
    declaredCallerTypes vars seen entries = .ok callerTypes ↔
      List.Forall₂ (Declares vars) entries callerTypes ∧ (callerTypes.map (·.name)).Nodup ∧
        ∀ c ∈ callerTypes, c.name ∉ seen := by
  induction entries generalizing seen callerTypes with
  | nil =>
    rw [declaredCallerTypes, Except.ok.injEq, List.forall₂_nil_left_iff]
    constructor
    · rintro rfl
      exact ⟨rfl, List.nodup_nil, nofun⟩
    · rintro ⟨rfl, -⟩
      rfl
  | cons entry entries ih =>
    obtain ⟨hentry, hentries⟩ := List.forall_mem_cons.mp h
    rw [declaredCallerTypes, Text.except_bind_eq_ok_iff]
    constructor
    · rintro ⟨c, hc, hread⟩
      obtain ⟨others, hothers, hread⟩ := Text.except_bind_eq_ok hread
      cases hread
      obtain ⟨hdeclares, hnew⟩ := (declaredCallerType_eq_ok_iff hentry).mp hc
      obtain ⟨hall, hdistinct, hseen⟩ := (ih hentries).mp hothers
      refine ⟨.cons hdeclares hall, ?_, ?_⟩
      · rw [List.map_cons, List.nodup_cons]
        refine ⟨fun hmem => ?_, hdistinct⟩
        obtain ⟨other, hother, hname⟩ := List.mem_map.mp hmem
        exact hseen other hother (hname ▸ List.mem_cons_self)
      · exact List.forall_mem_cons.mpr
          ⟨hnew, fun other hother hold => hseen other hother (List.mem_cons_of_mem _ hold)⟩
    · rintro ⟨hall, hdistinct, hseen⟩
      obtain ⟨c, others, hdeclares, hmore, rfl⟩ := List.forall₂_cons_left_iff.mp hall
      rw [List.map_cons, List.nodup_cons] at hdistinct
      obtain ⟨hnew, hseen⟩ := List.forall_mem_cons.mp hseen
      refine ⟨c, (declaredCallerType_eq_ok_iff hentry).mpr ⟨hdeclares, hnew⟩, ?_⟩
      rw [Text.except_bind_eq_ok_iff]
      refine ⟨others, (ih hentries).mpr ⟨hmore, hdistinct.2, fun other hother hold => ?_⟩, rfl⟩
      rcases List.mem_cons.mp hold with hsame | hold
      · exact hdistinct.1 (hsame ▸ List.mem_map_of_mem hother)
      · exact hseen other hother hold

end Turnstile.Settings
