import Mathlib.Logic.Function.Basic
import Turnstile.Proofs.Settings.Acceptance

/-!
# Blank variables

A blank variable is as good as a missing one, but for the time of a caller type. That one is read as
a number whenever it is set, and blanks alone are no number. It is asked for if everything that is
read before it is accepted: the cipher and the locks, the entries in front with all their variables,
and the entry of the caller type with its template.
-/

namespace Turnstile.Settings

variable {name : String} {blanked unset : Variables} {seen entries : List String} {entry : String}

/-- Variables that differ in one of them: it is blank in the first ones and missing in the
others. -/
structure BlankAt (name : String) (blanked unset : Variables) : Prop where
  blank : ∃ raw, blanked name = some raw ∧ Text.Blank raw
  missing : unset name = none
  same : ∀ other, other ≠ name → blanked other = unset other

theorem blankAt_update (vars : Variables) (name : String) {blank : String}
    (h : Text.Blank blank) :
    BlankAt name (Function.update vars name (some blank)) (Function.update vars name none) where
  blank := ⟨blank, Function.update_self .., h⟩
  missing := Function.update_self ..
  same other hother := by rw [Function.update_of_ne hother, Function.update_of_ne hother]

/-! ## Where blanks do not matter -/

/-- A blank list has no entries. -/
theorem splitList_of_blank {raw : String} (h : Text.Blank raw) : splitList raw = [] := by
  have hcomma : ',' ∉ raw.toList := fun hin => absurd (h ',' hin) (by decide)
  rw [splitList_eq, Text.splitAt_of_not_mem hcomma, List.map_singleton, String.ofList_toList,
    Text.trim_of_blank h]
  rfl

namespace BlankAt

/-- The variable in question is left out in both, and any other one is the same. -/
theorem same_or_leftOut (h : BlankAt name blanked unset) (other : String) :
    blanked other = unset other ∨ LeftOut blanked other ∧ LeftOut unset other := by
  by_cases hother : other = name
  · rw [hother]
    obtain ⟨raw, hvar, hblank⟩ := h.blank
    refine .inr ⟨fun raw' hvar' => ?_, fun raw' hvar' => ?_⟩
    · rw [hvar, Option.some.injEq] at hvar'
      exact hvar' ▸ hblank
    · rw [h.missing] at hvar'
      cases hvar'
  · exact .inl (h.same other hother)

theorem textOr_eq (h : BlankAt name blanked unset) (other default : String) :
    textOr blanked other default = textOr unset other default := by
  rcases h.same_or_leftOut other with hsame | ⟨hblank, hmissing⟩
  · rw [textOr, textOr, hsame]
  · rw [textOr_of_leftOut hblank, textOr_of_leftOut hmissing]

theorem variableOr_eq {α : Type} (h : BlankAt name blanked unset) (other : String)
    (read : String → Except Reason α) (default : α) :
    variableOr blanked other read default = variableOr unset other read default := by
  rcases h.same_or_leftOut other with hsame | ⟨hblank, hmissing⟩
  · rw [variableOr, variableOr, hsame]
  · rw [variableOr_of_leftOut hblank, variableOr_of_leftOut hmissing]

theorem entriesOf_eq (h : BlankAt name blanked unset) : entriesOf blanked = entriesOf unset := by
  rw [entriesOf, entriesOf, h.textOr_eq]

/-- The list of types that locks ignore is not asked whether it is blank, and need not be. -/
theorem ignoredTypes_eq (h : BlankAt name blanked unset) (other : String) :
    ((blanked other).map splitList).getD [] = ((unset other).map splitList).getD [] := by
  by_cases hother : other = name
  · obtain ⟨raw, hvar, hblank⟩ := h.blank
    rw [hother, hvar, h.missing, Option.map_some, splitList_of_blank hblank]
    rfl
  · rw [h.same other hother]

theorem readCipher_eq (h : BlankAt name blanked unset) (hname : name ≠ "GUARD_CIPHER_KEY") :
    readCipher blanked = readCipher unset := by
  rw [readCipher, readCipher, h.variableOr_eq, h.same _ hname.symm]

theorem readLock_eq (h : BlankAt name blanked unset) : readLock blanked = readLock unset := by
  simp only [readLock, h.variableOr_eq, h.textOr_eq, h.ignoredTypes_eq]

theorem readCarrier_eq (h : BlankAt name blanked unset) :
    readCarrier blanked = readCarrier unset := by
  simp only [readCarrier, h.textOr_eq]

theorem beginning_eq (h : BlankAt name blanked unset) (seen : List String) (entry : String) :
    beginning blanked seen entry = beginning unset seen entry := by
  simp only [beginning, h.textOr_eq]

/-- A caller type with its time in another variable is read as before. -/
theorem declaredCallerType_eq_of_ne (h : BlankAt name blanked unset)
    (hname : ttlVariable (entryName entry) ≠ name) (hentry : Text.Trimmed entry) :
    declaredCallerType blanked seen entry = declaredCallerType unset seen entry := by
  rw [declaredCallerType_eq, declaredCallerType_eq, h.beginning_eq]
  cases hbegun : beginning unset seen entry with
  | error e => rfl
  | ok c =>
    have hbegins := ((beginning_eq_ok_iff hentry).mp hbegun).1
    dsimp only [bind, Except.bind]
    rw [hbegins.name, h.same _ hname, h.variableOr_eq]

end BlankAt

/-! ## Where they do -/

/-- A number is not read from blanks. -/
theorem readVariable_of_blank {raw : String} (h : Text.Blank raw) (name : String) :
    readVariable name numberVariable raw = .error (.invalid name (.number .empty)) := by
  rw [readVariable, Text.trim_of_blank h]
  rfl

/-- A caller type with its time in the variable is refused, once its entry and its template are
accepted. -/
theorem BlankAt.declaredCallerType_eq_error (h : BlankAt name blanked unset)
    (hname : ttlVariable (entryName entry) = name) (hentry : Text.Trimmed entry)
    (hopens : EntryOpens unset entry) (hnew : entryName entry ∉ seen) :
    declaredCallerType blanked seen entry = .error (.invalid name (.number .empty)) := by
  obtain ⟨c, hbegins⟩ := exists_begins_iff.mpr hopens
  have hbegun : beginning unset seen entry = .ok { c with ttlSecs := none, sliding := false } :=
    (beginning_eq_ok_iff hentry).mpr ⟨hbegins.withRest none false, hbegins.name ▸ hnew, rfl, rfl⟩
  obtain ⟨raw, hvar, hblank⟩ := h.blank
  rw [declaredCallerType_eq, h.beginning_eq, hbegun]
  dsimp only [bind, Except.bind]
  rw [hbegins.name, hname, hvar, Option.mapM_some, readVariable_of_blank hblank]
  rfl

/-- The entries are read as far as a caller type whose time is in the variable. -/
inductive AsksTime (vars : Variables) (name : String) : List String → List String → Prop
  | here {seen more : List String} {entry : String} (hopens : EntryOpens vars entry)
      (hnew : entryName entry ∉ seen) (hname : ttlVariable (entryName entry) = name) :
      AsksTime vars name seen (entry :: more)
  | later {seen more : List String} {entry : String} (haccepted : EntryAccepted vars entry)
      (hnew : entryName entry ∉ seen) (hmore : AsksTime vars name (entryName entry :: seen) more) :
      AsksTime vars name seen (entry :: more)

/-- If the time is asked for, it is refused. -/
theorem BlankAt.declaredCallerTypes_eq_error (h : BlankAt name blanked unset)
    (hentries : ∀ entry ∈ entries, Text.Trimmed entry) (hasks : AsksTime unset name seen entries) :
    declaredCallerTypes blanked seen entries = .error (.invalid name (.number .empty)) := by
  induction hasks with
  | here hopens hnew hname =>
    have hentry := hentries _ List.mem_cons_self
    rw [declaredCallerTypes, h.declaredCallerType_eq_error hname hentry hopens hnew]
    rfl
  | @later seen more entry haccepted hnew _ ih =>
    obtain ⟨hentry, hmore⟩ := List.forall_mem_cons.mp hentries
    rw [declaredCallerTypes]
    by_cases hname : ttlVariable (entryName entry) = name
    · rw [h.declaredCallerType_eq_error hname hentry haccepted.toEntryOpens hnew]
      rfl
    · obtain ⟨c, hdeclares⟩ := exists_declares_iff.mpr haccepted
      have hread : declaredCallerType unset seen entry = .ok c :=
        (declaredCallerType_eq_ok_iff hentry).mpr ⟨hdeclares, hdeclares.name ▸ hnew⟩
      rw [h.declaredCallerType_eq_of_ne hname hentry, hread]
      dsimp only [bind, Except.bind]
      rw [hdeclares.name, ih hmore]

/-- If it is not, the caller types are read as before. -/
theorem BlankAt.declaredCallerTypes_eq (h : BlankAt name blanked unset)
    (hentries : ∀ entry ∈ entries, Text.Trimmed entry) (hasks : ¬AsksTime unset name seen entries) :
    declaredCallerTypes blanked seen entries = declaredCallerTypes unset seen entries := by
  induction entries generalizing seen with
  | nil => rfl
  | cons entry more ih =>
    obtain ⟨hentry, hmore⟩ := List.forall_mem_cons.mp hentries
    rw [declaredCallerTypes, declaredCallerTypes]
    by_cases hname : ttlVariable (entryName entry) = name
    · -- The entry is refused before its time is asked for, in both alike.
      rw [declaredCallerType_eq, declaredCallerType_eq, h.beginning_eq]
      cases hbegun : beginning unset seen entry with
      | error e => rfl
      | ok c =>
        obtain ⟨hbegins, hnew, -, -⟩ := (beginning_eq_ok_iff hentry).mp hbegun
        have hopens := exists_begins_iff.mp ⟨c, hbegins⟩
        exact absurd (.here hopens (hbegins.name ▸ hnew) hname) hasks
    · rw [h.declaredCallerType_eq_of_ne hname hentry]
      cases hread : declaredCallerType unset seen entry with
      | error e => rfl
      | ok c =>
        obtain ⟨hdeclares, hnew⟩ := (declaredCallerType_eq_ok_iff hentry).mp hread
        have haccepted := exists_declares_iff.mp ⟨c, hdeclares⟩
        dsimp only [bind, Except.bind]
        rw [ih hmore fun hlater => hasks (.later haccepted (hdeclares.name ▸ hnew) ?_)]
        rwa [← hdeclares.name]

/-! ## Whose number is at fault -/

section Faults

variable {vars : Variables} {fault : NumberFault}

/-- A fault is reported as it is wrapped. -/
theorem exists_of_mapError_eq_error {ε ε' α : Type} {read : Except ε α} {wrap : ε → ε'} {e : ε'}
    (h : read.mapError wrap = .error e) : ∃ e', read = .error e' ∧ wrap e' = e := by
  cases read with
  | error e' => exact ⟨e', rfl, Except.error.inj h⟩
  | ok a => cases h

/-- The first part of a caller type has no numbers. -/
theorem beginning_ne_number_fault :
    beginning vars seen entry ≠ .error (.invalid name (.number fault)) := by
  intro h
  rw [beginning] at h
  dsimp only at h
  rcases Text.except_bind_eq_error h with h | ⟨binding, -, h⟩
  · obtain ⟨_, -, h⟩ := exists_of_mapError_eq_error h
    cases h
  · split at h
    · cases h
    · rcases Text.except_bind_eq_error h with h | ⟨_, -, h⟩
      · obtain ⟨_, -, h⟩ := exists_of_mapError_eq_error h
        cases h
      · cases h

/-- A truth value is no number. -/
theorem variableOr_readFlag_ne_number_fault {other : String} {default : Bool} :
    variableOr vars other readFlag default ≠ .error (.invalid name (.number fault)) := by
  intro h
  rw [variableOr] at h
  split at h
  · split at h
    · cases h
    · obtain ⟨reason, hflag, h⟩ := exists_of_mapError_eq_error h
      cases h
      rw [readFlag] at hflag
      split_ifs at hflag
      cases hflag
  · cases h

/-- A number is at fault only in a variable that is there. -/
theorem ne_none_of_number_fault
    (h : declaredCallerTypes vars seen entries = .error (.invalid name (.number fault))) :
    vars name ≠ none := by
  induction entries generalizing seen with
  | nil => cases h
  | cons entry more ih =>
    rw [declaredCallerTypes] at h
    rcases Text.except_bind_eq_error h with h | ⟨c, -, h⟩
    · rw [declaredCallerType_eq] at h
      rcases Text.except_bind_eq_error h with h | ⟨begun, -, h⟩
      · exact absurd h beginning_ne_number_fault
      rcases Text.except_bind_eq_error h with h | ⟨ttlSecs, -, h⟩
      · -- The time: what is at fault is what is read.
        intro hnone
        cases hvar : vars (ttlVariable begun.name) with
        | none =>
          rw [hvar] at h
          cases h
        | some raw =>
          rw [hvar, Option.mapM_some, map_eq_pure_bind, Text.bind_pure_eq_error_iff] at h
          obtain ⟨_, -, h⟩ := exists_of_mapError_eq_error h
          obtain ⟨hname, -⟩ := SettingsError.invalid.inj h
          rw [hname, hnone] at hvar
          cases hvar
      · rw [Text.bind_pure_eq_error_iff] at h
        exact absurd h variableOr_readFlag_ne_number_fault
    · rw [Text.bind_pure_eq_error_iff] at h
      exact ih h

end Faults

/-! ## All variables -/

section All

variable {vars : Variables}

/-- The caller types are what is left to be read behind the cipher and the locks. -/
theorem ofVariables_eq_error_iff (hbasics : BasicsAccepted vars) {e : SettingsError} :
    ofVariables vars = .error e ↔ readCallerTypes vars = .error e := by
  obtain ⟨⟨cipher, hcipher⟩, lock, hlock⟩ := basicsAccepted_iff.mp hbasics
  rw [ofVariables, hcipher, hlock]
  exact Text.bind_pure_eq_error_iff

/-- A number of a caller type is at fault only in a variable that is there. -/
theorem readCallerTypes_ne_number_fault {fault : NumberFault} (hnone : vars name = none) :
    readCallerTypes vars ≠ .error (.invalid name (.number fault)) := by
  intro h
  rcases Text.except_bind_eq_error h with h | ⟨callerTypes, -, h⟩
  · exact ne_none_of_number_fault h hnone
  · split at h <;> cases h

theorem BlankAt.readCallerTypes_eq_error (h : BlankAt name blanked unset)
    (hasks : AsksTime unset name [] (entriesOf unset)) :
    readCallerTypes blanked = .error (.invalid name (.number .empty)) := by
  have hrefused := h.declaredCallerTypes_eq_error (fun _ => trimmed_of_mem_entriesOf) hasks
  rw [readCallerTypes, ← Settings.entriesOf_eq, h.entriesOf_eq, hrefused]
  rfl

theorem BlankAt.readCallerTypes_eq (h : BlankAt name blanked unset)
    (hasks : ¬AsksTime unset name [] (entriesOf unset)) :
    readCallerTypes blanked = readCallerTypes unset := by
  have hsame := h.declaredCallerTypes_eq (fun _ => trimmed_of_mem_entriesOf) hasks
  rw [readCallerTypes, readCallerTypes, ← Settings.entriesOf_eq, ← Settings.entriesOf_eq,
    h.entriesOf_eq, hsame]

/-- Settings are read from both alike, unless the time in the variable is asked for. -/
theorem BlankAt.ofVariables_eq (h : BlankAt name blanked unset) (hname : name ≠ "GUARD_CIPHER_KEY")
    (hasks : ¬(BasicsAccepted unset ∧ AsksTime unset name [] (entriesOf unset))) :
    ofVariables blanked = ofVariables unset := by
  rw [ofVariables, ofVariables, h.readCipher_eq hname, h.readLock_eq, h.readCarrier_eq, h.textOr_eq]
  cases hcipher : readCipher unset with
  | error e => rfl
  | ok cipher =>
    cases hlock : readLock unset with
    | error e => rfl
    | ok lock =>
      have hbasics := basicsAccepted_iff.mpr ⟨⟨cipher, hcipher⟩, lock, hlock⟩
      rw [h.readCallerTypes_eq fun hasked => hasks ⟨hbasics, hasked⟩]

end All

/-- With a blank variable the result is that without the variable, fault or not, exactly if reading
it does not come to a caller type whose time is in the variable. If it does, the variable is refused
for an empty number. -/
theorem blank_variable (vars : Variables) {name blank : String}
    (hname : name ≠ "GUARD_CIPHER_KEY") (hblank : Text.Blank blank) :
    let blanked := Function.update vars name (some blank)
    let unset := Function.update vars name none
    let asked := BasicsAccepted unset ∧ AsksTime unset name [] (entriesOf unset)
    (ofVariables blanked = ofVariables unset ↔ ¬asked) ∧
      (asked → ofVariables blanked = .error (.invalid name (.number .empty))) := by
  intro blanked unset asked
  have h : BlankAt name blanked unset := blankAt_update vars name hblank
  have hsameBasics : BasicsAccepted unset → BasicsAccepted blanked := by
    rw [basicsAccepted_iff, basicsAccepted_iff, h.readCipher_eq hname, h.readLock_eq]
    exact id
  have hrefused (hasked : asked) : ofVariables blanked = .error (.invalid name (.number .empty)) :=
    (ofVariables_eq_error_iff (hsameBasics hasked.1)).mpr (h.readCallerTypes_eq_error hasked.2)
  refine ⟨⟨fun hsame hasked => ?differ, h.ofVariables_eq hname⟩, hrefused⟩
  case differ =>
    have hfault := (ofVariables_eq_error_iff hasked.1).mp (hsame.symm.trans (hrefused hasked))
    exact readCallerTypes_ne_number_fault h.missing hfault

/-- Nothing but the key material. -/
def onlyKey : Variables := fun name => if name = "GUARD_CIPHER_KEY" then some "k" else none

/-- The time of the second caller type is asked for, and a tab there refused. -/
theorem blank_variable_of_tab :
    let vars := Function.update onlyKey callerTypesVariable (some "console, mobile-app:device")
    let time := "GUARD_SESSION_MOBILE_APP_TTL_SECS"
    let unset := Function.update vars time none
    (BasicsAccepted unset ∧ AsksTime unset time [] (entriesOf unset)) ∧
      ofVariables (Function.update vars time (some "\t")) =
        .error (.invalid time (.number .empty)) := by
  intro vars time unset
  have hdiffer : ofVariables (Function.update vars time (some "\t")) ≠ ofVariables unset := by
    decide +kernel
  have htime : time ≠ "GUARD_CIPHER_KEY" := by decide
  have htab : Text.Blank "\t" := by decide
  obtain ⟨hsame, hrefused⟩ := blank_variable vars htime htab
  have hasked := not_not.mp (mt hsame.mpr hdiffer)
  exact ⟨hasked, hrefused hasked⟩

/-- Not every blank variable is as good as a missing one: a blank time is refused where without it
the caller type that is declared by default is accepted. -/
theorem blank_time_refused : ¬∀ (vars : Variables) (name blank : String),
    name ≠ "GUARD_CIPHER_KEY" → Text.Blank blank →
      ofVariables (Function.update vars name (some blank)) =
        ofVariables (Function.update vars name none) := by
  intro h
  have hsame := h onlyKey "GUARD_SESSION_CONSOLE_TTL_SECS" " " (by decide) (by decide)
  exact absurd hsame (by decide +kernel)

end Turnstile.Settings
