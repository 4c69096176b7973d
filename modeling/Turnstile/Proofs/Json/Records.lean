import Turnstile.Json.Record
import Turnstile.Proofs.Json.Values

/-!
# Reading records back

A field that has been read into a draft stays there: it cannot be read a second time, and no other
member touches it. So what the first member of an object says is found in the record, whatever
the members after it say.
-/

namespace Turnstile.Json

open Bytes (ofChars)
open Text (bind_eq_ok bind_of_ok get_bind)

namespace Reader

variable {α β σ : Type} {s rest : Bytes}

/-- What is read of a whole text is read of its beginning. -/
theorem document_eq_ok {reader : Reader α} {a : α} (h : document reader s = .ok a) :
    ∃ rest, reader s = .ok (a, rest) := by
  rw [document] at h
  cases hreader : reader s with
  | error e =>
    rw [hreader] at h
    cases h
  | ok read =>
    obtain ⟨found, rest⟩ := read
    rw [hreader] at h
    dsimp only [Bind.bind, Except.bind] at h
    split at h
    · cases h
      exact ⟨rest, rfl⟩
    · cases h

/-- What holds of the result so far, and is kept by every member, holds of the whole result. -/
theorem foldMembers_invariant {P : σ → Prop} {step : σ → String → Reader σ}
    (hstep : ∀ acc key s next rest, P acc → step acc key s = .ok (next, rest) → P next)
    {fuel : Bytes} {first : Bool} {acc result : σ} (hacc : P acc)
    (h : foldMembers step fuel first acc s = .ok (result, rest)) : P result := by
  induction fuel generalizing first acc s with
  | nil => cases h
  | cons _ fuel ih =>
    rw [foldMembers] at h
    obtain ⟨key?, mid, -, h⟩ := bind_eq_ok h
    cases key? with
    | none =>
      cases h
      exact hacc
    | some key =>
      obtain ⟨next, mid', hnext, h⟩ := bind_eq_ok h
      exact ih (hstep acc key mid next mid' hacc hnext) h

/-- A text is read back, whatever comes behind it. -/
theorem text_render (text : String) (rest : Bytes) :
    Reader.text (ofChars (Value.string text).render ++ rest) = .ok (text, rest) := by
  rw [Value.render, ofChars_quoted, List.cons_append, List.append_assoc]
  exact stringBody_quoted text rest

end Reader

open Reader

/-- What is read of a field is put into the draft. -/
theorem Field.read_of {δ α : Type} {name : String} {mayEndBefore : Bool} {get : δ → Option α}
    {put : δ → α → δ} {read : Nat → Reader α} {depth : Nat} {draft next : δ} {s rest : Bytes}
    (h : (Field.of name mayEndBefore get put read).read depth draft s = .ok (next, rest)) :
    ∃ a, read depth s = .ok (a, rest) ∧ next = put draft a := by
  obtain ⟨a, mid, hread, hput⟩ := bind_eq_ok h
  cases hput
  exact ⟨a, hread, rfl⟩

namespace RecordLayout

variable {δ α : Type} (layout : RecordLayout δ α)

/-- A member is a field that has not been read before, or it is passed over. -/
theorem member_cases {depth : Nat} {draft next : δ} {key : String} {s rest : Bytes}
    (h : layout.member depth draft key s = .ok (next, rest)) :
    (∃ field ∈ layout.fields, field.present draft = false ∧
      ∃ mid, field.read depth draft mid = .ok (next, rest)) ∨ next = draft := by
  unfold member at h
  cases hfound : layout.fields.find? (·.name = key) with
  | none =>
    rw [hfound] at h
    obtain ⟨_, mid, -, h⟩ := bind_eq_ok h
    obtain ⟨_, mid, -, h⟩ := bind_eq_ok h
    cases h
    exact .inr rfl
  | some field =>
    rw [hfound] at h
    dsimp only at h
    split at h
    · obtain ⟨_, mid, hthrow, -⟩ := bind_eq_ok h
      cases hthrow
    · rename_i hpresent
      obtain ⟨_, mid, -, h⟩ := bind_eq_ok h
      exact .inl ⟨field, List.mem_of_find?_eq_some hfound, Bool.eq_false_iff.2 hpresent, mid, h⟩

/-- A brace begins a record. -/
theorem read_brace (depth : Nat) (s : Bytes) :
    layout.read (depth + 1) (byte '\x7b' :: s) =
      (objectBody (layout.member depth) layout.blank >>= fun draft =>
        (layout.finish draft : Except ReadError α) : Reader α) s := rfl

/-- What is said by the first member of an object, and kept by every other one, holds of the draft
that the record is made of. -/
theorem read_object {P : δ → Prop} {depth : Nat} {key : String} {v : Value}
    {members : List (String × Value)} {s rest : Bytes} {a : α}
    (hfirst : ∀ s draft rest, layout.member depth layout.blank key
      (byte ':' :: (ofChars v.render ++ s)) = .ok (draft, rest) → P draft)
    (hkept : ∀ draft key s next rest, P draft →
      layout.member depth draft key s = .ok (next, rest) → P next)
    (h : layout.read (depth + 1) (ofChars (Value.object ((key, v) :: members)).render ++ s) =
      .ok (a, rest)) : ∃ draft, P draft ∧ layout.finish draft = .ok a := by
  rw [Value.ofChars_object, read_brace] at h
  obtain ⟨draft, behind, hbody, hfinish⟩ := bind_eq_ok h
  have hfolded (fuel : Bytes) {result : δ} {close : Bytes}
      (hfold : foldMembers (layout.member depth) fuel true layout.blank
        (ofChars (Value.membersText true ((key, v) :: members)) ++ byte '\x7d' :: s) =
          .ok (result, close)) : P result := by
    cases fuel with
    | nil => cases hfold
    | cons _ fuel =>
      rw [foldMembers, bind_of_ok (Value.nextKey_membersText key v members true _)] at hfold
      obtain ⟨next, mid, hnext, hfold⟩ := bind_eq_ok hfold
      exact foldMembers_invariant hkept (hfirst _ next mid hnext) hfold
  have hdraft : P draft := by
    rw [objectBody, get_bind] at hbody
    obtain ⟨result, close, hfold, hresult⟩ := bind_eq_ok hbody
    cases hresult
    exact hfolded _ hfold
  refine ⟨draft, hdraft, ?_⟩
  cases hrecord : layout.finish draft with
  | error e =>
    rw [hrecord] at hfinish
    cases hfinish
  | ok record =>
    rw [hrecord] at hfinish
    cases hfinish
    rfl

end RecordLayout
end Turnstile.Json
