import Turnstile.Proofs.Json.Numbers
import Turnstile.Proofs.Json.Scalars

/-!
# Texts of values

Different values have different texts, and more than that: a text begins with the text of at most
one value, as long as nothing follows that could belong to a number. The numbers in a value must
be such that JSON has a text for them, which excludes infinities and NaN.
-/

namespace Turnstile.Json

open Bytes (ofChars)

/-- Nothing comes next that could belong to a number. -/
def Ends (rest : List Char) : Prop := ∀ c ∈ rest.head?, isNumberChar c = false

/-- A text in quotes is followed by one rest. -/
theorem quoted_append_inj {s t : String} {rest rest' : List Char}
    (h : quoted s ++ rest = quoted t ++ rest') : s = t := by
  have hbytes := congrArg ofChars h
  rw [Bytes.ofChars_append, Bytes.ofChars_append, Reader.ofChars_quoted, Reader.ofChars_quoted,
    List.cons_append, List.cons_append, List.append_assoc, List.append_assoc] at hbytes
  have hread := Reader.stringBody_quoted s (ofChars rest)
  rw [← List.singleton_append, (List.cons.inj hbytes).2, List.singleton_append,
    Reader.stringBody_quoted] at hread
  exact (Prod.mk.inj (Except.ok.inj hread)).1.symm

namespace Value

/-! ## Values that JSON has a text for -/

mutual
/-- Every number inside has a text. -/
def Finite : Value → Prop
  | .number n => n.Finite
  | .array items => ItemsFinite items
  | .object members => MembersFinite members
  | _ => True

/-- Every number in any item has a text. -/
def ItemsFinite : List Value → Prop
  | [] => True
  | v :: rest => v.Finite ∧ ItemsFinite rest

/-- Every number in any member's value has a text. -/
def MembersFinite : List (String × Value) → Prop
  | [] => True
  | (_, v) :: rest => v.Finite ∧ MembersFinite rest
end

/-! ## First characters -/

/-- Which kind of value a value is. -/
def kind : Value → Nat
  | .null => 0
  | .bool _ => 1
  | .number _ => 2
  | .string _ => 3
  | .array _ => 4
  | .object _ => 5

/-- Which kind of value a character begins. -/
def kindOf (c : Char) : Option Nat :=
  if isNumberChar c then some 2
  else if c = 'n' then some 0
  else if c = 't' ∨ c = 'f' then some 1
  else if c = '"' then some 3
  else if c = '[' then some 4
  else if c = '{' then some 5
  else none

/-- The first character tells the kind of a value. -/
theorem kindOf_render {v : Value} (hv : v.Finite) :
    ∃ c rest, v.render = c :: rest ∧ kindOf c = some v.kind := by
  cases v with
  | null => exact ⟨_, _, rfl, rfl⟩
  | bool b => cases b <;> exact ⟨_, _, rfl, rfl⟩
  | number n =>
    obtain ⟨c, rest, hcons⟩ := List.exists_cons_of_ne_nil (Number.render_ne_nil hv)
    have hc := Number.isNumberChar_render hv c (hcons ▸ List.mem_cons_self)
    exact ⟨c, rest, hcons, if_pos hc⟩
  | string text => exact ⟨_, _, rfl, rfl⟩
  | array items =>
    rw [render]
    exact ⟨_, _, rfl, rfl⟩
  | object members =>
    rw [render]
    exact ⟨_, _, rfl, rfl⟩

/-- What no value begins with does not begin a text of a value. -/
theorem render_append_ne {v : Value} (hv : v.Finite) {c : Char} (hc : kindOf c = none)
    (rest rest' : List Char) : v.render ++ rest ≠ c :: rest' := by
  obtain ⟨d, more, hcons, hd⟩ := kindOf_render hv
  rw [hcons, List.cons_append]
  intro heq
  rw [(List.cons.inj heq).1, hc] at hd
  cases hd

/-- Values that begin one text are of one kind. -/
theorem kind_eq_of_render_append {v w : Value} (hv : v.Finite) (hw : w.Finite)
    {rest rest' : List Char} (h : v.render ++ rest = w.render ++ rest') : v.kind = w.kind := by
  obtain ⟨c, more, hcons, hc⟩ := kindOf_render hv
  obtain ⟨d, more', hcons', hd⟩ := kindOf_render hw
  rw [hcons, hcons', List.cons_append, List.cons_append] at h
  rw [(List.cons.inj h).1, hd] at hc
  exact (Option.some.inj hc).symm

/-- After an item no number goes on. -/
theorem ends_moreItems (items : List Value) (rest : List Char) :
    Ends (renderMoreItems items ++ ']' :: rest) := by
  cases items with
  | nil => exact fun c hc => Option.some.inj hc ▸ rfl
  | cons v items => exact fun c hc => Option.some.inj hc ▸ rfl

/-- After a member no number goes on. -/
theorem ends_moreMembers (members : List (String × Value)) (rest : List Char) :
    Ends (renderMoreMembers members ++ '}' :: rest) := by
  cases members with
  | nil => exact fun c hc => Option.some.inj hc ▸ rfl
  | cons member members => exact fun c hc => Option.some.inj hc ▸ rfl

/-! ## One value for each text -/

/-- Items that follow the bracket could as well follow other items. -/
theorem moreItems_of_items {items items' : List Value} (hv : ItemsFinite items)
    (hw : ItemsFinite items') {rest rest' : List Char}
    (h : renderItems items ++ ']' :: rest = renderItems items' ++ ']' :: rest') :
    renderMoreItems items ++ ']' :: rest = renderMoreItems items' ++ ']' :: rest' := by
  cases items with
  | nil =>
    cases items' with
    | nil => exact h
    | cons w items' =>
      rw [renderItems, renderItems, List.append_assoc] at h
      exact absurd h.symm (render_append_ne hw.1 rfl _ _)
  | cons v items =>
    cases items' with
    | nil =>
      rw [renderItems, renderItems, List.append_assoc] at h
      exact absurd h (render_append_ne hv.1 rfl _ _)
    | cons w items' => exact congrArg (',' :: ·) h

/-- Members that follow the brace could as well follow other members. -/
theorem moreMembers_of_members {members members' : List (String × Value)} {rest rest' : List Char}
    (h : renderMembers members ++ '}' :: rest = renderMembers members' ++ '}' :: rest') :
    renderMoreMembers members ++ '}' :: rest = renderMoreMembers members' ++ '}' :: rest' := by
  cases members with
  | nil =>
    cases members' with
    | nil => exact h
    | cons member members' => exact absurd (List.cons.inj h).1 (by decide)
  | cons member members =>
    cases members' with
    | nil => exact absurd (List.cons.inj h).1 (by decide)
    | cons member' members' => exact congrArg (',' :: ·) h

mutual

/-- A text begins with the text of at most one value. -/
theorem eq_of_render_append : ∀ (v w : Value), v.Finite → w.Finite → ∀ {rest rest' : List Char},
    Ends rest → Ends rest' → v.render ++ rest = w.render ++ rest' → v = w
  | .null, w, hv, hw, rest, rest', _, _, h => by
    have hkind := kind_eq_of_render_append hv hw h
    cases w with
    | null => rfl
    | _ => exact absurd hkind (Nat.ne_of_beq_eq_false rfl)
  | .bool b, w, hv, hw, rest, rest', _, _, h => by
    have hkind := kind_eq_of_render_append hv hw h
    cases w with
    | bool c =>
      cases b <;> cases c
      · rfl
      · exact absurd (List.cons.inj h).1 (by decide)
      · exact absurd (List.cons.inj h).1 (by decide)
      · rfl
    | _ => exact absurd hkind (Nat.ne_of_beq_eq_false rfl)
  | .number m, w, hv, hw, rest, rest', hrest, hrest', h => by
    have hkind := kind_eq_of_render_append hv hw h
    cases w with
    | number n =>
      have hspan := Text.eq_of_span_append (Number.isNumberChar_render hv) hrest
        (Number.isNumberChar_render hw) hrest' h
      rw [Number.render_injective hv hw hspan.1]
    | _ => exact absurd hkind (Nat.ne_of_beq_eq_false rfl)
  | .string s, w, hv, hw, rest, rest', _, _, h => by
    have hkind := kind_eq_of_render_append hv hw h
    cases w with
    | string t => rw [quoted_append_inj h]
    | _ => exact absurd hkind (Nat.ne_of_beq_eq_false rfl)
  | .array items, w, hv, hw, rest, rest', _, _, h => by
    have hkind := kind_eq_of_render_append hv hw h
    cases w with
    | array items' =>
      rw [render, render, List.cons_append, List.cons_append, List.append_assoc,
        List.append_assoc] at h
      rw [eq_of_renderMoreItems items items' hv hw
        (moreItems_of_items hv hw (List.cons.inj h).2)]
    | _ => exact absurd hkind (Nat.ne_of_beq_eq_false rfl)
  | .object members, w, hv, hw, rest, rest', _, _, h => by
    have hkind := kind_eq_of_render_append hv hw h
    cases w with
    | object members' =>
      rw [render, render, List.cons_append, List.cons_append, List.append_assoc,
        List.append_assoc] at h
      rw [eq_of_renderMoreMembers members members' hv hw
        (moreMembers_of_members (List.cons.inj h).2)]
    | _ => exact absurd hkind (Nat.ne_of_beq_eq_false rfl)

/-- An array goes on with one list of items. -/
theorem eq_of_renderMoreItems : ∀ (items items' : List Value), ItemsFinite items →
    ItemsFinite items' → ∀ {rest rest' : List Char},
      renderMoreItems items ++ ']' :: rest = renderMoreItems items' ++ ']' :: rest' →
        items = items'
  | [], [], _, _, _, _, _ => rfl
  | [], w :: items', _, _, rest, rest', h => by
    rw [renderMoreItems, renderMoreItems] at h
    exact absurd (List.cons.inj h).1 (by decide)
  | v :: items, [], _, _, rest, rest', h => by
    rw [renderMoreItems, renderMoreItems] at h
    exact absurd (List.cons.inj h).1 (by decide)
  | v :: items, w :: items', hv, hw, rest, rest', h => by
    rw [renderMoreItems, renderMoreItems, List.cons_append, List.cons_append, List.append_assoc,
      List.append_assoc] at h
    have hmore := (List.cons.inj h).2
    have hfirst := eq_of_render_append v w hv.1 hw.1 (ends_moreItems items rest)
      (ends_moreItems items' rest') hmore
    rw [hfirst] at hmore ⊢
    rw [eq_of_renderMoreItems items items' hv.2 hw.2 (List.append_cancel_left hmore)]

/-- An object goes on with one list of members. -/
theorem eq_of_renderMoreMembers : ∀ (members members' : List (String × Value)),
    MembersFinite members → MembersFinite members' → ∀ {rest rest' : List Char},
      renderMoreMembers members ++ '}' :: rest = renderMoreMembers members' ++ '}' :: rest' →
        members = members'
  | [], [], _, _, _, _, _ => rfl
  | [], (l, w) :: members', _, _, rest, rest', h => by
    rw [renderMoreMembers, renderMoreMembers] at h
    exact absurd (List.cons.inj h).1 (by decide)
  | (k, v) :: members, [], _, _, rest, rest', h => by
    rw [renderMoreMembers, renderMoreMembers] at h
    exact absurd (List.cons.inj h).1 (by decide)
  | (k, v) :: members, (l, w) :: members', hv, hw, rest, rest', h => by
    rw [renderMoreMembers, renderMoreMembers, List.cons_append, List.cons_append,
      List.append_assoc, List.append_assoc] at h
    have hmore := (List.cons.inj h).2
    have hkey := quoted_append_inj hmore
    rw [hkey] at hmore ⊢
    have hcolon := List.append_cancel_left hmore
    rw [List.cons_append, List.cons_append, List.append_assoc, List.append_assoc] at hcolon
    have hvalue := (List.cons.inj hcolon).2
    have hfirst := eq_of_render_append v w hv.1 hw.1 (ends_moreMembers members rest)
      (ends_moreMembers members' rest') hvalue
    rw [hfirst] at hvalue ⊢
    rw [eq_of_renderMoreMembers members members' hv.2 hw.2 (List.append_cancel_left hvalue)]

end

/-- Different values have different texts. -/
theorem eq_of_render {v w : Value} (hv : v.Finite) (hw : w.Finite) (h : v.render = w.render) :
    v = w := by
  have hends : Ends [] := nofun
  refine eq_of_render_append v w hv hw hends hends ?_
  rw [h]

end Value
end Turnstile.Json
