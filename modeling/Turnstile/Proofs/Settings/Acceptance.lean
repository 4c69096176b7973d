import Turnstile.Proofs.Settings.Declared
import Turnstile.Proofs.Token.Comparison

/-!
# Which variables are accepted

Whether variables make settings is a question about each of them alone, but for the names of the
caller types, which have to be distinct. The variables of a caller type are asked for only if its
entry is there, and nothing is asked of any other variable.
-/

namespace Turnstile.Settings

open Key (idPlaceholder)

variable {vars : Variables} {entry : String}

/-! ## What is asked of an entry -/

/-- What is asked of an entry and of its template. -/
structure EntryOpens (vars : Variables) (entry : String) : Prop where
  named : entryName entry ≠ ""
  binding : ∃ binding, NamesBinding (entryBinding entry) binding
  template : ∀ raw, vars (templateVariable (entryName entry)) = some raw →
    Text.Blank raw ∨ idPlaceholder <:+: raw.toList

/-- What is asked of an entry and of all variables of its caller type. A time may be missing, but
not blank. -/
structure EntryAccepted (vars : Variables) (entry : String) : Prop
    extends EntryOpens vars entry where
  ttl : ∀ raw, vars (ttlVariable (entryName entry)) = some raw → ∃ n, WritesNumber raw n
  sliding : Legible vars (slidingVariable (entryName entry)) NamesFlag

/-- A template is accepted if it is left out or has a place for the binding key. -/
theorem exists_template_iff {name : String} :
    (∃ template, Says vars name Eq Key.defaultTemplate template ∧
      idPlaceholder <:+: template.toList) ↔
    ∀ raw, vars name = some raw → Text.Blank raw ∨ idPlaceholder <:+: raw.toList := by
  constructor
  · rintro ⟨template, hout | ⟨hvar, -, rfl⟩, hplace⟩ raw hraw
    · exact .inl (hout raw hraw)
    · rw [hvar, Option.some.injEq] at hraw
      exact .inr (hraw ▸ hplace)
  · intro h
    rcases leftOut_or_filled vars name with hout | ⟨raw, hvar, hfilled⟩
    · exact ⟨_, .leftOut hout, Key.validateTemplate_eq_ok_iff.mp (by decide)⟩
    · exact ⟨raw, .filled hvar hfilled rfl, (h raw hvar).resolve_left hfilled⟩

/-- The first part of a caller type is there if its entry and its template are accepted. -/
theorem exists_begins_iff : (∃ c, Begins vars entry c) ↔ EntryOpens vars entry := by
  constructor
  · rintro ⟨c, h⟩
    exact {
      named := h.name ▸ h.named
      binding := ⟨c.binding, h.binding⟩
      template := exists_template_iff.mp ⟨c.keyTemplate, h.name ▸ h.template, h.placeholder⟩ }
  · intro h
    obtain ⟨binding, hbinding⟩ := h.binding
    obtain ⟨template, htemplate, hplace⟩ := exists_template_iff.mpr h.template
    exact ⟨⟨entryName entry, binding, none, template, false⟩,
      rfl, h.named, hbinding, htemplate, hplace⟩

/-- A caller type is declared if its entry is accepted. -/
theorem exists_declares_iff : (∃ c, Declares vars entry c) ↔ EntryAccepted vars entry := by
  constructor
  · rintro ⟨c, h⟩
    refine { exists_begins_iff.mp ⟨c, h.toBegins⟩ with ttl := ?_, sliding := ?_ }
    · intro raw hraw
      have httl := h.ttl
      rw [h.name, hraw] at httl
      generalize c.ttlSecs = ttl at httl
      cases httl with
      | some hn => exact ⟨_, hn⟩
    · rw [← h.name]
      exact exists_says_iff.mp ⟨c.sliding, h.sliding⟩
  · intro h
    obtain ⟨c, hbegins⟩ := exists_begins_iff.mpr h.toEntryOpens
    have httl : ∃ ttl, Option.Rel WritesNumber (vars (ttlVariable c.name)) ttl := by
      rw [hbegins.name]
      cases hvar : vars (ttlVariable (entryName entry)) with
      | none => exact ⟨none, .none⟩
      | some raw =>
        obtain ⟨n, hn⟩ := h.ttl raw hvar
        exact ⟨some n, .some hn⟩
    obtain ⟨ttl, httl⟩ := httl
    obtain ⟨sliding, hsliding⟩ := exists_says_iff.mpr (hbegins.name ▸ h.sliding)
    exact ⟨{ c with ttlSecs := ttl, sliding }, hbegins.withRest ttl sliding, httl, hsliding⟩

/-! ## All entries -/

/-- The entries of the list that declares the caller types: what stands between its commas, without
the blanks around it and unless nothing is left. -/
def entriesOf (vars : Variables) : List String :=
  ((Text.splitAt ',' (textOr vars callerTypesVariable "console:principal").toList).map
    fun part => Text.trim (String.ofList part)).filter (· ≠ "")

theorem entriesOf_eq (vars : Variables) :
    entriesOf vars = splitList (textOr vars callerTypesVariable "console:principal") :=
  (splitList_eq _).symm

theorem trimmed_of_mem_entriesOf (h : entry ∈ entriesOf vars) : Text.Trimmed entry :=
  (mem_splitList (entriesOf_eq vars ▸ h)).1

/-- The caller types have the names of their entries. -/
theorem map_name_of_declares {entries : List String} {callerTypes : List CallerType}
    (h : List.Forall₂ (Declares vars) entries callerTypes) :
    callerTypes.map (·.name) = entries.map entryName := by
  induction h with
  | nil => rfl
  | cons hfirst _ ih => rw [List.map_cons, List.map_cons, hfirst.name, ih]

/-- Each caller type is declared by one of the entries. -/
theorem exists_entry {entries : List String} {callerTypes : List CallerType} {c : CallerType}
    (h : List.Forall₂ (Declares vars) entries callerTypes) (hc : c ∈ callerTypes) :
    ∃ entry ∈ entries, Declares vars entry c := by
  induction h with
  | nil => cases hc
  | @cons entry _ entries _ hfirst _ ih =>
    rcases List.mem_cons.mp hc with rfl | hmore
    · exact ⟨entry, List.mem_cons_self, hfirst⟩
    · obtain ⟨other, hother, hdeclares⟩ := ih hmore
      exact ⟨other, List.mem_cons_of_mem entry hother, hdeclares⟩

/-- Caller types are declared if each entry is accepted. -/
theorem exists_forall₂_declares_iff {entries : List String} :
    (∃ callerTypes, List.Forall₂ (Declares vars) entries callerTypes) ↔
      ∀ entry ∈ entries, EntryAccepted vars entry := by
  induction entries with
  | nil => exact iff_of_true ⟨[], .nil⟩ nofun
  | cons entry entries ih =>
    rw [List.forall_mem_cons, ← ih, ← exists_declares_iff]
    constructor
    · rintro ⟨callerTypes, hall⟩
      obtain ⟨c, others, hfirst, hmore, -⟩ := List.forall₂_cons_left_iff.mp hall
      exact ⟨⟨c, hfirst⟩, others, hmore⟩
    · rintro ⟨⟨c, hfirst⟩, others, hmore⟩
      exact ⟨c :: others, .cons hfirst hmore⟩

/-- The caller types are those that the entries declare, if there are any, under distinct names. -/
theorem readCallerTypes_eq_ok_iff {callerTypes : List CallerType} :
    readCallerTypes vars = .ok callerTypes ↔
      List.Forall₂ (Declares vars) (entriesOf vars) callerTypes ∧ callerTypes ≠ [] ∧
        (callerTypes.map (·.name)).Nodup := by
  have htrimmed : ∀ entry ∈ entriesOf vars, Text.Trimmed entry := fun _ => trimmed_of_mem_entriesOf
  rw [readCallerTypes, ← entriesOf_eq, Text.except_bind_eq_ok_iff]
  constructor
  · rintro ⟨declared, hdeclared, hread⟩
    split at hread
    · obtain ⟨_, hrefused, -⟩ := Text.except_bind_eq_ok hread
      cases hrefused
    · rename_i hsome
      obtain rfl := Except.ok.inj hread
      obtain ⟨hall, hdistinct, -⟩ := (declaredCallerTypes_eq_ok_iff htrimmed).mp hdeclared
      exact ⟨hall, by simpa using hsome, hdistinct⟩
  · rintro ⟨hall, hsome, hdistinct⟩
    refine ⟨callerTypes, (declaredCallerTypes_eq_ok_iff htrimmed).mpr ⟨hall, hdistinct, ?_⟩, ?_⟩
    · exact fun c _ => List.not_mem_nil
    · rw [if_neg (by simpa using hsome)]
      rfl

/-- Caller types are read exactly if there are entries, all accepted and under distinct names. -/
theorem exists_readCallerTypes_iff : (∃ callerTypes, readCallerTypes vars = .ok callerTypes) ↔
    entriesOf vars ≠ [] ∧ (∀ entry ∈ entriesOf vars, EntryAccepted vars entry) ∧
      ((entriesOf vars).map entryName).Nodup := by
  constructor
  · rintro ⟨callerTypes, hread⟩
    obtain ⟨hall, hsome, hdistinct⟩ := readCallerTypes_eq_ok_iff.mp hread
    have hnames := map_name_of_declares hall
    refine ⟨?_, exists_forall₂_declares_iff.mp ⟨callerTypes, hall⟩, hnames ▸ hdistinct⟩
    rintro hnone
    rw [hnone, List.forall₂_nil_left_iff] at hall
    exact hsome hall
  · rintro ⟨hsome, haccepted, hdistinct⟩
    obtain ⟨callerTypes, hall⟩ := exists_forall₂_declares_iff.mpr haccepted
    refine ⟨callerTypes, readCallerTypes_eq_ok_iff.mpr ⟨hall, ?_, ?_⟩⟩
    · rintro rfl
      exact hsome (List.forall₂_nil_right_iff.mp hall)
    · rwa [map_name_of_declares hall]

/-! ## All variables -/

/-- What is asked of the variables of the cipher and of the locks. -/
structure BasicsAccepted (vars : Variables) : Prop where
  key : ∃ key, vars "GUARD_CIPHER_KEY" = some key ∧ key ≠ ""
  algorithm : Legible vars "GUARD_CIPHER_ALGORITHM" NamesAlgorithm
  waitMs : Legible vars "GUARD_LOCK_WAIT_MS" WritesNumber
  leaseMs : Legible vars "GUARD_LOCK_LEASE_MS" WritesNumber
  kind : Legible vars "GUARD_LOCK_KIND" NamesKind

/-- What is asked of all variables. -/
structure Accepted (vars : Variables) : Prop extends BasicsAccepted vars where
  declared : entriesOf vars ≠ []
  entries : ∀ entry ∈ entriesOf vars, EntryAccepted vars entry
  distinct : ((entriesOf vars).map entryName).Nodup

/-- The settings of the cipher are the key material and the algorithm that the variables name. -/
theorem readCipher_eq_ok_iff {c : CipherSettings} : readCipher vars = .ok c ↔
    (vars "GUARD_CIPHER_KEY" = some c.key ∧ c.key ≠ "") ∧
      Says vars "GUARD_CIPHER_ALGORITHM" NamesAlgorithm .aes256 c.algorithm := by
  rw [← variableOr_eq_ok_iff readAlgorithm_eq_ok_iff, readCipher, Text.except_bind_eq_ok_iff]
  constructor
  · rintro ⟨algorithm, halgorithm, hkey⟩
    split at hkey
    · rename_i key hvar
      split at hkey
      · cases hkey
      · rename_i hne
        obtain rfl := Except.ok.inj hkey
        exact ⟨⟨hvar, by simpa using hne⟩, halgorithm⟩
    · cases hkey
  · rintro ⟨⟨hvar, hne⟩, halgorithm⟩
    refine ⟨c.algorithm, halgorithm, ?_⟩
    rw [hvar]
    dsimp only
    rw [if_neg (by simpa using hne)]
    rfl

theorem exists_readCipher_iff : (∃ cipher, readCipher vars = .ok cipher) ↔
    (∃ key, vars "GUARD_CIPHER_KEY" = some key ∧ key ≠ "") ∧
      Legible vars "GUARD_CIPHER_ALGORITHM" NamesAlgorithm := by
  constructor
  · rintro ⟨cipher, hread⟩
    obtain ⟨hkey, halgorithm⟩ := readCipher_eq_ok_iff.mp hread
    exact ⟨⟨cipher.key, hkey⟩, exists_says_iff.mp ⟨cipher.algorithm, halgorithm⟩⟩
  · rintro ⟨⟨key, hkey⟩, hlegible⟩
    obtain ⟨algorithm, halgorithm⟩ := exists_says_iff.mpr hlegible
    exact ⟨⟨algorithm, key⟩, readCipher_eq_ok_iff.mpr ⟨hkey, halgorithm⟩⟩

theorem exists_readLock_iff : (∃ lock, readLock vars = .ok lock) ↔
    Legible vars "GUARD_LOCK_WAIT_MS" WritesNumber ∧
      Legible vars "GUARD_LOCK_LEASE_MS" WritesNumber ∧ Legible vars "GUARD_LOCK_KIND" NamesKind := by
  rw [← exists_variableOr_iff LockSettings.standard.waitMs numberVariable_eq_ok_iff,
    ← exists_variableOr_iff LockSettings.standard.leaseMs numberVariable_eq_ok_iff,
    ← exists_variableOr_iff LockSettings.standard.kind readKind_eq_ok_iff, readLock]
  constructor
  · intro hread
    obtain ⟨waitMs, hwait, hread⟩ := Text.exists_bind_eq_ok_iff.mp hread
    obtain ⟨leaseMs, hlease, hread⟩ := Text.exists_bind_eq_ok_iff.mp hread
    obtain ⟨kind, hkind, -⟩ := Text.exists_bind_eq_ok_iff.mp hread
    exact ⟨⟨waitMs, hwait⟩, ⟨leaseMs, hlease⟩, kind, hkind⟩
  · rintro ⟨⟨waitMs, hwait⟩, ⟨leaseMs, hlease⟩, kind, hkind⟩
    refine Text.exists_bind_eq_ok_iff.mpr ⟨waitMs, hwait, ?_⟩
    refine Text.exists_bind_eq_ok_iff.mpr ⟨leaseMs, hlease, ?_⟩
    exact Text.exists_bind_eq_ok_iff.mpr ⟨kind, hkind, _, rfl⟩

/-- The settings of the cipher and of the locks are read exactly if their variables are accepted. -/
theorem basicsAccepted_iff : BasicsAccepted vars ↔
    (∃ cipher, readCipher vars = .ok cipher) ∧ ∃ lock, readLock vars = .ok lock := by
  rw [exists_readCipher_iff, exists_readLock_iff]
  constructor
  · intro h
    exact ⟨⟨h.key, h.algorithm⟩, h.waitMs, h.leaseMs, h.kind⟩
  · rintro ⟨⟨hkey, halgorithm⟩, hwait, hlease, hkind⟩
    exact ⟨hkey, halgorithm, hwait, hlease, hkind⟩

/-- Settings are read exactly if all variables are accepted. -/
theorem exists_ofVariables_iff : (∃ s, ofVariables vars = .ok s) ↔ Accepted vars := by
  constructor
  · rintro ⟨s, hread⟩
    obtain ⟨cipher, hcipher, hread⟩ := Text.except_bind_eq_ok hread
    obtain ⟨lock, hlock, hread⟩ := Text.except_bind_eq_ok hread
    obtain ⟨callerTypes, hcallers, -⟩ := Text.except_bind_eq_ok hread
    have hbasics := basicsAccepted_iff.mpr ⟨⟨cipher, hcipher⟩, lock, hlock⟩
    obtain ⟨hsome, hentries, hdistinct⟩ := exists_readCallerTypes_iff.mp ⟨callerTypes, hcallers⟩
    exact ⟨hbasics, hsome, hentries, hdistinct⟩
  · intro h
    obtain ⟨⟨cipher, hcipher⟩, lock, hlock⟩ := basicsAccepted_iff.mp h.toBasicsAccepted
    obtain ⟨callerTypes, hcallers⟩ :=
      exists_readCallerTypes_iff.mpr ⟨h.declared, h.entries, h.distinct⟩
    rw [ofVariables, hcipher, hlock, hcallers]
    exact ⟨_, rfl⟩

/-- Settings have the cipher and the caller types that are read. -/
theorem parts_of_ofVariables {s : Settings} (h : ofVariables vars = .ok s) :
    readCipher vars = .ok s.cipher ∧ readCallerTypes vars = .ok s.callerTypes := by
  obtain ⟨cipher, hcipher, h⟩ := Text.except_bind_eq_ok h
  obtain ⟨lock, -, h⟩ := Text.except_bind_eq_ok h
  obtain ⟨callerTypes, hcallers, h⟩ := Text.except_bind_eq_ok h
  cases h
  exact ⟨hcipher, hcallers⟩

/-- Key material makes a cipher. -/
theorem exists_cipher {c : CipherSettings} (h : c.key ≠ "") : ∃ cipher, c.cipher = .ok cipher := by
  have hmaterial : Bytes.ofText c.key ≠ [] := fun hempty => h (Bytes.ofText_inj.mp hempty)
  exact ⟨_, dif_neg hmaterial⟩

/-- Settings are made of variables exactly if there is key material, what else is set for the cipher
and the locks can be read unless it is blank, the list of caller types has entries, all entries are
accepted with the variables of their caller types, and their names are distinct. The caller types
are then those that the entries declare, in their order. Their names are trimmed and hold neither
commas nor colons, their templates have a place for the binding key, and the key material makes a
cipher. -/
theorem accepted_variables (vars : Variables) :
    ((∃ s, ofVariables vars = .ok s) ↔ Accepted vars) ∧
    ∀ s, ofVariables vars = .ok s →
      List.Forall₂ (Declares vars) (entriesOf vars) s.callerTypes ∧
      (∀ c ∈ s.callerTypes, ',' ∉ c.name.toList ∧ ':' ∉ c.name.toList ∧ Text.Trimmed c.name ∧
        idPlaceholder <:+: c.keyTemplate.toList) ∧
      ∃ cipher, s.cipher.cipher = .ok cipher := by
  refine ⟨exists_ofVariables_iff, fun s hread => ?_⟩
  obtain ⟨hcipher, hcallers⟩ := parts_of_ofVariables hread
  have hkey := (readCipher_eq_ok_iff.mp hcipher).1.2
  have hdeclared := (readCallerTypes_eq_ok_iff.mp hcallers).1
  refine ⟨hdeclared, fun c hc => ?_, exists_cipher hkey⟩
  obtain ⟨entry, hentry, hdeclares⟩ := exists_entry hdeclared hc
  refine ⟨fun hcomma => ?_, ?_, ?_, hdeclares.placeholder⟩
  · rw [hdeclares.name] at hcomma
    rw [entriesOf_eq] at hentry
    exact (mem_splitList hentry).2 (mem_of_mem_entryName hcomma)
  · exact hdeclares.name ▸ colon_not_mem_entryName
  · exact hdeclares.name ▸ Text.trimmed_trim _

end Turnstile.Settings
