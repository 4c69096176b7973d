import Turnstile.Proofs.Json.Written

/-!
# Tables are read as they are written

The entries of a table are written in the order of their keys, so each is put behind those that
have been read before it. A table is read back unless one of its values nests too deep: it is
refused with the first one that does.
-/

namespace Turnstile.Json

open Bytes (ofChars)
open Text (bind_of_error bind_of_ok)

namespace Value

variable {items : List Value} {members : List (String × Value)}

theorem itemsOrdered_iff : ItemsOrdered items ↔ ∀ v ∈ items, v.Ordered := by
  induction items with
  | nil => exact ⟨fun _ => nofun, fun _ => trivial⟩
  | cons v items ih => rw [List.forall_mem_cons, ← ih]; rfl

theorem itemsDepth_le_iff {n : Nat} : itemsDepth items ≤ n ↔ ∀ v ∈ items, v.depth ≤ n := by
  induction items with
  | nil => exact ⟨fun _ => nofun, fun _ => Nat.zero_le n⟩
  | cons v items ih => rw [List.forall_mem_cons, ← ih]; exact Nat.max_le

theorem membersOrdered_iff : MembersOrdered members ↔ ∀ e ∈ members, e.2.Ordered := by
  induction members with
  | nil => exact ⟨fun _ => nofun, fun _ => trivial⟩
  | cons e members ih => rw [List.forall_mem_cons, ← ih]; rfl

theorem membersDepth_le_iff {n : Nat} :
    membersDepth members ≤ n ↔ ∀ e ∈ members, e.2.depth ≤ n := by
  induction members with
  | nil => exact ⟨fun _ => nofun, fun _ => Nat.zero_le n⟩
  | cons e members ih => rw [List.forall_mem_cons, ← ih]; exact Nat.max_le

end Value

namespace Reader

variable {σ : Type} {depth : Nat}

theorem readsBack_value {v : Value} (hordered : v.Ordered) (hreal : v.RealFree)
    (hdepth : v.depth ≤ depth) : ReadsBack (value depth) v v := by
  intro rest hrest
  rw [Value.value_render v hordered hreal depth hrest, if_pos hdepth]

theorem refuses_value {v : Value} (hordered : v.Ordered) (hreal : v.RealFree)
    (hdepth : ¬v.depth ≤ depth) : Refuses (value depth) v .nestingLimit := by
  intro rest hrest
  rw [Value.value_render v hordered hreal depth hrest, if_neg hdepth]

/-- Members whose keys go on where those of a table end are put behind its entries, unless one of
them nests too deep. -/
theorem takesAll_insert {step : σ → String → Reader σ} (into : Table Value → σ)
    {members : List (String × Value)}
    (hstep : ∀ e ∈ members, ∀ t, step (into t) e.1 = do
      colon
      return into (t.insert e.1 (← value depth)))
    (hordered : ∀ e ∈ members, e.2.Ordered) (hreal : ∀ e ∈ members, e.2.RealFree)
    {front whole : Table Value} (hwhole : whole.entries = front.entries ++ members) :
    TakesAll step (into front) members
      (if Value.membersDepth members ≤ depth then .ok (into whole) else .error .nestingLimit) := by
  -- The table in front grows by the member that has been read, so it is left open.
  induction members generalizing front with
  | nil =>
    have hsame : front = whole := by
      rw [Table.mk.injEq, hwhole, List.append_nil]
    rw [hsame]
    exact .nil _
  | cons e members ih =>
    obtain ⟨key, v⟩ := e
    have hcolon (rest : Bytes) : step (into front) key (byte ':' :: rest) =
        (value depth >>= fun v => pure (into (front.insert key v)) : Reader σ) rest := by
      rw [hstep (key, v) List.mem_cons_self front, bind_of_ok (colon_cons rest)]
    by_cases hdepth : v.depth ≤ depth
    · have hread := readsBack_value (hordered (key, v) List.mem_cons_self)
        (hreal (key, v) List.mem_cons_self) hdepth
      have hmore := ih (fun e he => hstep e (List.mem_cons_of_mem _ he))
        (fun e he => hordered e (List.mem_cons_of_mem _ he))
        (fun e he => hreal e (List.mem_cons_of_mem _ he)) (Table.entries_insert hwhole)
      have hmax : Value.membersDepth ((key, v) :: members) ≤ depth ↔
          Value.membersDepth members ≤ depth := Nat.max_le.trans (and_iff_right hdepth)
      simp only [hmax]
      refine .cons (fun rest hrest => ?_) hmore
      rw [hcolon, bind_of_ok (hread rest hrest)]
      rfl
    · have hread := refuses_value (hordered (key, v) List.mem_cons_self)
        (hreal (key, v) List.mem_cons_self) hdepth
      have hmax : ¬Value.membersDepth ((key, v) :: members) ≤ depth := fun hle =>
        hdepth (Nat.max_le.1 hle).1
      rw [if_neg hmax]
      refine .fault fun rest hrest => ?_
      rw [hcolon, bind_of_error (hread rest hrest)]

section Written

variable {t : Table Value} (hordered : ∀ e ∈ t.entries, e.2.Ordered)
  (hreal : ∀ e ∈ t.entries, e.2.RealFree)

include hordered hreal

/-- The entries of a table are taken in unless one of them nests too deep. -/
theorem takesAll_entries (depth : Nat) :
    TakesAll (fun t key => do
      colon
      return t.insert key (← value depth)) Table.empty t.entries
      (if Value.membersDepth t.entries ≤ depth then .ok t else .error .nestingLimit) :=
  takesAll_insert id (fun _ _ _ => rfl) hordered hreal rfl

theorem readsBack_table (hdepth : ∀ e ∈ t.entries, e.2.depth ≤ depth) :
    ReadsBack (table value (depth + 1)) (.ofTable t) t := by
  intro rest _
  have hentries := takesAll_entries hordered hreal depth
  rw [if_pos (Value.membersDepth_le_iff.2 hdepth)] at hentries
  rw [Value.ofTable, Value.ofChars_object, table, opened_cons (by decide), nested]
  exact hentries.objectBody rest

theorem refuses_table (hdepth : ¬∀ e ∈ t.entries, e.2.depth ≤ depth) :
    Refuses (table value (depth + 1)) (.ofTable t) .nestingLimit := by
  intro rest _
  have hentries := takesAll_entries hordered hreal depth
  rw [if_neg (fun hle => hdepth (Value.membersDepth_le_iff.1 hle))] at hentries
  rw [Value.ofTable, Value.ofChars_object, table, opened_cons (by decide), nested]
  exact hentries.objectBody_error rest

end Written
end Reader
end Turnstile.Json
