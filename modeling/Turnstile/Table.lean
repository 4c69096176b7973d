/-!
# Tables sorted by key

A table maps texts to values. Its entries are kept in strictly increasing order of
their keys, so two tables that answer every look-up alike are equal.
-/

namespace Turnstile

namespace Table

variable {α : Type _}

/-- The entries with one more, which replaces an entry of the same key. -/
def insertEntry (key : String) (value : α) : List (String × α) → List (String × α)
  | [] => [(key, value)]
  | (k, v) :: rest =>
    if key < k then (key, value) :: (k, v) :: rest
    else if key = k then (key, value) :: rest
    else (k, v) :: insertEntry key value rest

/-- The value of the first entry with the given key. -/
def findEntry (key : String) : List (String × α) → Option α
  | [] => none
  | (k, v) :: rest => if k = key then some v else findEntry key rest

/-- Entries whose keys strictly increase. -/
def Increasing (entries : List (String × α)) : Prop := entries.Pairwise (·.1 < ·.1)

instance (entries : List (String × α)) : Decidable (Increasing entries) :=
  inferInstanceAs (Decidable (entries.Pairwise (·.1 < ·.1)))

theorem mem_insertEntry {key : String} {value : α} {entries : List (String × α)}
    {e : String × α} (h : e ∈ insertEntry key value entries) :
    e = (key, value) ∨ e ∈ entries := by
  induction entries with
  | nil => simpa [insertEntry] using h
  | cons head rest ih =>
    simp only [insertEntry] at h
    split at h
    · simpa using h
    · split at h
      · rcases List.mem_cons.1 h with h | h
        · exact .inl h
        · exact .inr (List.mem_cons_of_mem _ h)
      · rcases List.mem_cons.1 h with h | h
        · exact .inr (h ▸ List.mem_cons_self)
        · rcases ih h with h | h
          · exact .inl h
          · exact .inr (List.mem_cons_of_mem _ h)

/-- Of two different texts that are not increasing, the second comes first. -/
theorem lt_of_not_lt_of_ne {a b : String} (h : ¬a < b) (hne : a ≠ b) : b < a := by
  by_cases hba : b < a
  · exact hba
  · exact absurd (String.le_antisymm (String.not_lt.1 hba) (String.not_lt.1 h)) hne

theorem increasing_insertEntry {entries : List (String × α)} (h : Increasing entries)
    (key : String) (value : α) : Increasing (insertEntry key value entries) := by
  induction entries with
  | nil => simp [insertEntry, Increasing]
  | cons head rest ih =>
    obtain ⟨k, v⟩ := head
    have hhead := (List.pairwise_cons.1 h).1
    have hrest : Increasing rest := (List.pairwise_cons.1 h).2
    simp only [insertEntry]
    split
    · rename_i hlt
      refine List.pairwise_cons.2 ⟨fun e he => ?_, h⟩
      rcases List.mem_cons.1 he with rfl | he
      · exact hlt
      · exact String.lt_trans hlt (hhead e he)
    · split
      · rename_i heq
        refine List.pairwise_cons.2 ⟨fun e he => ?_, hrest⟩
        simpa [heq] using hhead e he
      · rename_i hnlt hne
        refine List.pairwise_cons.2 ⟨fun e he => ?_, ih hrest⟩
        rcases mem_insertEntry he with rfl | he
        · exact lt_of_not_lt_of_ne hnlt hne
        · exact hhead e he

end Table

/-- A map from texts to values, sorted by key. -/
structure Table (α : Type _) where
  entries : List (String × α)
  increasing : Table.Increasing entries
  deriving DecidableEq

namespace Table

variable {α : Type _}

/-- The table without entries. -/
def empty : Table α := ⟨[], .nil⟩

instance : EmptyCollection (Table α) := ⟨empty⟩
instance : Inhabited (Table α) := ⟨empty⟩

/-- The value under a key. -/
def get? (t : Table α) (key : String) : Option α := findEntry key t.entries

/-- Whether a key has a value. -/
def contains (t : Table α) (key : String) : Bool := (t.get? key).isSome

/-- The table with the value under the key, whatever was there before. -/
def insert (t : Table α) (key : String) (value : α) : Table α :=
  ⟨insertEntry key value t.entries, increasing_insertEntry t.increasing key value⟩

/-- The table with the entries that satisfy a test. -/
def filter (t : Table α) (keep : String → α → Bool) : Table α :=
  ⟨t.entries.filter fun e => keep e.1 e.2, t.increasing.filter _⟩

/-- The table without the key. -/
def erase (t : Table α) (key : String) : Table α := t.filter fun k _ => k != key

/-- The keys in increasing order. -/
def keys (t : Table α) : List String := t.entries.map (·.1)

/-- The number of entries. -/
def size (t : Table α) : Nat := t.entries.length

/-- The table of a list of entries, a later entry replacing an earlier one of its key. -/
def ofList (entries : List (String × α)) : Table α :=
  entries.foldl (fun t e => t.insert e.1 e.2) empty

theorem findEntry_insertEntry (key : String) (value : α) (entries : List (String × α))
    (probe : String) : findEntry probe (insertEntry key value entries) =
      if key = probe then some value else findEntry probe entries := by
  induction entries with
  | nil => simp [insertEntry, findEntry]
  | cons head rest ih =>
    simp only [insertEntry]
    split
    · simp [findEntry]
    · split
      · rename_i heq
        subst heq
        simp only [findEntry]
        split <;> rfl
      · rename_i hne
        simp only [findEntry, ih]
        split
        · rename_i heq
          rw [if_neg (heq ▸ hne)]
        · rfl

@[simp] theorem get?_empty (key : String) : (empty : Table α).get? key = none := rfl

/-- A look-up after an insertion. -/
theorem get?_insert (t : Table α) (key : String) (value : α) (probe : String) :
    (t.insert key value).get? probe = if key = probe then some value else t.get? probe :=
  findEntry_insertEntry key value t.entries probe

@[simp] theorem get?_insert_self (t : Table α) (key : String) (value : α) :
    (t.insert key value).get? key = some value := by simp [get?_insert]

theorem findEntry_eq_none {key : String} {entries : List (String × α)}
    (h : ∀ e ∈ entries, e.1 ≠ key) : findEntry key entries = none := by
  induction entries with
  | nil => rfl
  | cons head rest ih =>
    simp only [findEntry]
    rw [if_neg (h head List.mem_cons_self)]
    exact ih fun e he => h e (List.mem_cons_of_mem _ he)

theorem findEntry_filter {entries : List (String × α)} (hinc : Increasing entries)
    (keep : String → α → Bool) (key : String) :
    findEntry key (entries.filter fun e => keep e.1 e.2) =
      (findEntry key entries).filter (keep key) := by
  induction entries with
  | nil => rfl
  | cons head rest ih =>
    obtain ⟨k, v⟩ := head
    have hhead := (List.pairwise_cons.1 hinc).1
    have ih := ih (List.pairwise_cons.1 hinc).2
    simp only [List.filter_cons, findEntry]
    by_cases hk : k = key
    · subst hk
      cases hkeep : keep k v
      · simp only [Bool.false_eq_true, if_false, if_true, Option.filter, hkeep]
        refine findEntry_eq_none fun e he => ?_
        have hlt := hhead e (List.mem_filter.1 he).1
        intro heq
        exact String.lt_irrefl _ (heq ▸ hlt)
      · simp [findEntry, Option.filter, hkeep]
    · rw [if_neg hk]
      cases keep k v
      · simpa using ih
      · simp [findEntry, hk, ih]

theorem mem_of_findEntry {key : String} {value : α} {entries : List (String × α)}
    (h : findEntry key entries = some value) : (key, value) ∈ entries := by
  induction entries with
  | nil => cases h
  | cons head rest ih =>
    simp only [findEntry] at h
    split at h
    · rename_i hk
      cases h
      exact hk ▸ List.mem_cons_self
    · exact List.mem_cons_of_mem _ (ih h)

theorem insertEntry_eq_self {key : String} {value : α} {entries : List (String × α)}
    (hinc : Increasing entries) (h : findEntry key entries = some value) :
    insertEntry key value entries = entries := by
  induction entries with
  | nil => cases h
  | cons head rest ih =>
    obtain ⟨k, v⟩ := head
    simp only [findEntry] at h
    split at h
    · rename_i hk
      cases h
      simp [insertEntry, hk]
    · rename_i hk
      have hlt : k < key := (List.pairwise_cons.1 hinc).1 _ (mem_of_findEntry h)
      have hnlt : ¬key < k := fun hgt => String.lt_irrefl _ (String.lt_trans hlt hgt)
      simp only [insertEntry, if_neg hnlt, if_neg (Ne.symm hk)]
      rw [ih (List.pairwise_cons.1 hinc).2 h]

/-- Writing the value that is there already changes nothing. -/
theorem insert_eq_self {t : Table α} {key : String} {value : α} (h : t.get? key = some value) :
    t.insert key value = t := by
  obtain ⟨entries, hinc⟩ := t
  simp only [insert, mk.injEq]
  exact insertEntry_eq_self hinc h

/-- An entry of a greater key than all others comes last. -/
theorem insertEntry_of_forall_lt {key : String} {value : α} {entries : List (String × α)}
    (h : ∀ e ∈ entries, e.1 < key) : insertEntry key value entries = entries ++ [(key, value)] := by
  induction entries with
  | nil => rfl
  | cons head rest ih =>
    obtain ⟨k, v⟩ := head
    have hlt : k < key := h _ List.mem_cons_self
    have hnlt : ¬key < k := fun hgt => String.lt_irrefl _ (String.lt_trans hlt hgt)
    have hne : key ≠ k := fun heq => String.lt_irrefl _ (heq ▸ hlt)
    simp only [insertEntry, if_neg hnlt, if_neg hne, List.cons_append]
    rw [ih fun e he => h e (List.mem_cons_of_mem _ he)]

/-- The first of the entries behind those of a table is the last one after its insertion. -/
theorem entries_insert {front whole : Table α} {key : String} {value : α}
    {more : List (String × α)} (h : whole.entries = front.entries ++ (key, value) :: more) :
    whole.entries = (front.insert key value).entries ++ more := by
  have hlast : ∀ e ∈ front.entries, e.1 < key := fun e he =>
    (List.pairwise_append.1 (h ▸ whole.increasing)).2.2 e he (key, value) List.mem_cons_self
  have hinsert : (front.insert key value).entries = front.entries ++ [(key, value)] :=
    insertEntry_of_forall_lt hlast
  rw [hinsert, h, List.append_assoc]
  rfl

/-- A table is the one of its entries. -/
theorem ofList_entries (t : Table α) : ofList t.entries = t := by
  have hfold {entries : List (String × α)} {front : Table α}
      (h : t.entries = front.entries ++ entries) :
      entries.foldl (fun t e => t.insert e.1 e.2) front = t := by
    induction entries generalizing front with
    | nil => rw [List.foldl_nil, mk.injEq, h, List.append_nil]
    | cons e entries ih => exact ih (entries_insert h)
  exact hfold rfl

theorem eq_of_findEntry {a b : List (String × α)} (ha : Increasing a) (hb : Increasing b)
    (h : ∀ key, findEntry key a = findEntry key b) : a = b := by
  induction a generalizing b with
  | nil =>
    cases b with
    | nil => rfl
    | cons head b => simpa [findEntry] using h head.1
  | cons head a ih =>
    obtain ⟨k, v⟩ := head
    cases b with
    | nil => simpa [findEntry] using h k
    | cons head b =>
      obtain ⟨l, w⟩ := head
      obtain ⟨hlower, hrest⟩ := List.pairwise_cons.1 ha
      obtain ⟨hlower', hrest'⟩ := List.pairwise_cons.1 hb
      have hk : v = w ∧ l = k := by
        have hfind := h k
        have hfind' := h l
        simp only [findEntry, if_true] at hfind hfind'
        by_cases hkl : l = k
        · rw [if_pos hkl] at hfind
          exact ⟨Option.some.inj hfind, hkl⟩
        -- Each of the two keys would have to come after the other one.
        · rw [if_neg hkl] at hfind
          rw [if_neg (Ne.symm hkl)] at hfind'
          have hlt : l < k := hlower' _ (mem_of_findEntry hfind.symm)
          have hgt : k < l := hlower _ (mem_of_findEntry hfind')
          exact absurd (String.lt_trans hlt hgt) (String.lt_irrefl _)
      obtain ⟨rfl, rfl⟩ := hk
      rw [ih hrest hrest' fun key => ?_]
      by_cases hkey : l = key
      · subst hkey
        rw [findEntry_eq_none fun e he heq => String.lt_irrefl _ (heq ▸ hlower e he),
          findEntry_eq_none fun e he heq => String.lt_irrefl _ (heq ▸ hlower' e he)]
      · simpa [findEntry, hkey] using h key

/-- Tables that answer every look-up alike are equal. -/
theorem ext_get? {t u : Table α} (h : ∀ key, t.get? key = u.get? key) : t = u := by
  obtain ⟨a, ha⟩ := t
  obtain ⟨b, hb⟩ := u
  rw [mk.injEq]
  exact eq_of_findEntry ha hb h

/-- A look-up among the entries that satisfy a test. -/
theorem get?_filter (t : Table α) (keep : String → α → Bool) (key : String) :
    (t.filter keep).get? key = (t.get? key).filter (keep key) :=
  findEntry_filter t.increasing keep key

/-- A look-up after a removal. -/
theorem get?_erase (t : Table α) (key probe : String) :
    (t.erase key).get? probe = if probe = key then none else t.get? probe := by
  rw [erase, get?_filter]
  by_cases h : probe = key
  · subst h
    cases t.get? probe <;> simp [Option.filter]
  · cases t.get? probe <;> simp [Option.filter, h]

end Table
end Turnstile
