import Turnstile.Proofs.Json.Outcomes
import Turnstile.Proofs.Token.Sealing
import Turnstile.Session.Context

/-!
# Records in stores

A record is read back from its octets unless its metadata nests too deep, which the record does not
prevent. What has been read once has no such metadata, so it is read back for ever.
-/

namespace Turnstile.Session

open Json (Value RecordLayout ReadError)
open Json.Reader
open Json.RecordLayout (Fills)

namespace Context

variable {depth : Nat}

/-- The authorities are written in their order, each one once. -/
theorem readsBack_authorities (c : Context) :
    ReadsBack (readAuthorities (depth + 1)) (.array (c.authorities.keys.map .string))
      c.authorities := by
  have hkeys : Table.ofList (c.authorities.keys.map (·, ())) = c.authorities := by
    rw [Table.keys, List.map_map]
    exact (congrArg Table.ofList (List.map_id _)).trans (Table.ofList_entries _)
  have hlist : ReadsBack (list (fun _ => text) (depth + 1))
      (.array (c.authorities.keys.map .string)) c.authorities.keys :=
    readsBack_list (fun _ _ => trivial) fun name _ => readsBack_text name
  intro rest hrest
  rw [readAuthorities, Text.bind_of_ok (hlist rest hrest), hkeys]
  rfl

/-- What comes before the metadata is read back, whatever comes of these. -/
theorem fills_of_metadata (c : Context) {outcome : Except ReadError Draft}
    (h : Fills (depth + 1) (layout.fields.drop 4) ⟨some c.principalId, some c.displayName,
      some c.callerType, some c.authorities, none, none, none, none⟩ (c.members.drop 4) outcome) :
    Fills (depth + 1) layout.fields layout.blank c.members outcome := by
  refine .cons rfl (readsBack_text _) ?_
  refine .cons rfl (readsBack_text _) ?_
  refine .cons rfl (readsBack_text _) ?_
  exact .cons rfl c.readsBack_authorities h

section Written

variable {c : Context} (hordered : ∀ e ∈ c.metadata.entries, e.2.Ordered)
  (hreal : ∀ e ∈ c.metadata.entries, e.2.RealFree)

include hordered hreal

theorem readsBack (hdepth : ∀ e ∈ c.metadata.entries, e.2.depth ≤ depth) :
    ReadsBack (layout.read (depth + 2)) c.toValue c := by
  have hfills : Fills (depth + 1) layout.fields layout.blank c.members
      (.ok ⟨some c.principalId, some c.displayName, some c.callerType, some c.authorities,
        some c.metadata, some c.enabled, some c.locked, some c.expired⟩) := by
    refine c.fills_of_metadata (.cons rfl (readsBack_table hordered hreal hdepth) ?_)
    refine .cons rfl (readsBack_flag _) ?_
    refine .cons rfl (readsBack_flag _) ?_
    exact .cons rfl (readsBack_flag _) (.nil _)
  exact hfills.readsBack (by decide) rfl

theorem refuses (hdepth : ¬∀ e ∈ c.metadata.entries, e.2.depth ≤ depth) :
    Refuses (layout.read (depth + 2)) c.toValue .nestingLimit := by
  have hfills : Fills (depth + 1) layout.fields layout.blank c.members (.error .nestingLimit) :=
    c.fills_of_metadata (.fault rfl (refuses_table hordered hreal hdepth))
  exact hfills.refuses (by decide)

end Written

/-- The metadata that are read into a draft, if any, are bounded. -/
def Draft.Bounded (depth : Nat) (draft : Draft) : Prop :=
  ∀ t, draft.metadata = some t → Json.Reader.Bounded depth t

/-- Each field of a context but one leaves the metadata alone. -/
theorem yields_field {draft : Draft} (hdraft : draft.Bounded depth) :
    ∀ field ∈ layout.fields, Yields (Draft.Bounded depth) (field.read (depth + 1) draft) := by
  simp only [layout, List.forall_mem_cons]
  refine ⟨?_, ?_, ?_, ?_, ?metadata, ?_, ?_, ?_, nofun⟩
  case metadata =>
    refine (yields_table depth).bind fun t ht => .pure fun found hfound => ?_
    cases hfound
    exact ht
  all_goals exact .after fun _ => .pure hdraft

/-- The metadata are those of the draft. -/
theorem metadata_of_finish {draft : Draft} {c : Context} (h : layout.finish draft = .ok c) :
    c.metadata = draft.metadata.getD ∅ := by
  obtain ⟨principalId, displayName, callerType, _⟩ := draft
  cases principalId <;> cases displayName <;> cases callerType <;> cases h
  rfl

/-- A context that is read has bounded metadata. -/
theorem yields_read (depth : Nat) :
    Yields (fun c => Bounded depth c.metadata) (layout.read (depth + 2)) := by
  have hblank : Draft.Bounded depth layout.blank := by
    intro t hnone
    cases hnone
  refine (RecordLayout.yields_read hblank
    fun field hmem draft hdraft => yields_field hdraft field hmem).mono ?_
  rintro c ⟨draft, hdraft, hfinish⟩
  rw [metadata_of_finish hfinish]
  cases hmetadata : draft.metadata with
  | none => exact nofun
  | some t => exact hdraft t hmetadata

end Context

namespace Record

variable {depth : Nat}

theorem readsBack_optionalSigned (n : Option Int64) :
    ReadsBack (optional signed) (optionalSigned n) n := by
  cases n with
  | none => exact readsBack_none signed
  | some n => exact readsBack_some_signed n

section Written

variable {r : Record} (hordered : ∀ e ∈ r.context.metadata.entries, e.2.Ordered)
  (hreal : ∀ e ∈ r.context.metadata.entries, e.2.RealFree)

include hordered hreal

theorem readsBack (hdepth : ∀ e ∈ r.context.metadata.entries, e.2.depth ≤ depth) :
    ReadsBack (layout.read (depth + 3)) r.toValue r := by
  have hfills : Fills (depth + 2) layout.fields layout.blank
      [("context", r.context.toValue), ("expires_at_ms", optionalSigned r.expiresAtMs)]
      (.ok ⟨some r.context, some r.expiresAtMs⟩) := by
    refine .cons rfl (Context.readsBack hordered hreal hdepth) ?_
    exact .cons rfl (readsBack_optionalSigned _) (.nil _)
  exact hfills.readsBack (by decide) rfl

theorem refuses (hdepth : ¬∀ e ∈ r.context.metadata.entries, e.2.depth ≤ depth) :
    Refuses (layout.read (depth + 3)) r.toValue .nestingLimit := by
  have hfills : Fills (depth + 2) layout.fields layout.blank
      [("context", r.context.toValue), ("expires_at_ms", optionalSigned r.expiresAtMs)]
      (.error .nestingLimit) :=
    .fault rfl (Context.refuses hordered hreal hdepth)
  exact hfills.refuses (by decide)

/-- A record is read back from its octets unless its metadata nests too deep. -/
theorem ofBytes_toBytes : ofBytes r.toBytes =
    if ∀ e ∈ r.context.metadata.entries, e.2.depth ≤ 124 then .ok r else .error .nestingLimit := by
  by_cases hdepth : ∀ e ∈ r.context.metadata.entries, e.2.depth ≤ 124
  · rw [if_pos hdepth]
    exact document_of_readsBack (readsBack hordered hreal hdepth)
  · rw [if_neg hdepth]
    exact document_of_refuses (refuses hordered hreal hdepth)

end Written

/-- A record whose metadata are texts is read back from its octets. -/
theorem ofBytes_toBytes_of_texts {r : Record}
    (h : ∀ e ∈ r.context.metadata.entries, ∃ text, e.2 = .string text) :
    ofBytes r.toBytes = .ok r := by
  have hplain : ∀ e ∈ r.context.metadata.entries,
      e.2.Ordered ∧ e.2.RealFree ∧ e.2.depth ≤ 124 := by
    intro e he
    obtain ⟨text, htext⟩ := h e he
    rw [htext]
    exact ⟨trivial, trivial, Nat.zero_le _⟩
  rw [ofBytes_toBytes (fun e he => (hplain e he).1) fun e he => (hplain e he).2.1]
  exact if_pos fun e he => (hplain e he).2.2

/-- The metadata of the context that is read into a draft, if any, are bounded. -/
def Draft.Bounded (depth : Nat) (draft : Draft) : Prop :=
  ∀ c, draft.context = some c → Json.Reader.Bounded depth c.metadata

/-- The fields of a record keep the metadata bounded. -/
theorem yields_field {draft : Draft} (hdraft : draft.Bounded depth) :
    ∀ field ∈ layout.fields, Yields (Draft.Bounded depth) (field.read (depth + 2) draft) := by
  simp only [layout, List.forall_mem_cons]
  refine ⟨?_, .after fun _ => .pure hdraft, nofun⟩
  refine (Context.yields_read depth).bind fun c hc => .pure fun found hfound => ?_
  cases hfound
  exact hc

/-- A record that is read has bounded metadata. -/
theorem bounded_of_ofBytes {octets : Bytes} {r : Record} (h : ofBytes octets = .ok r) :
    Bounded 124 r.context.metadata := by
  have hblank : Draft.Bounded 124 layout.blank := by
    intro c hnone
    cases hnone
  have hread := RecordLayout.yields_read hblank
    fun field hmem draft hdraft => yields_field hdraft field hmem
  obtain ⟨⟨context, expiresAtMs⟩, hdraft, hfinish⟩ := hread.document h
  cases context with
  | none => cases hfinish
  | some context =>
    cases hfinish
    exact hdraft context rfl

/-- Without doubles among its metadata a record is read back from its octets exactly if these nest
no more than 124 arrays and objects; and whatever octets a record has been read from, it is read
back from its own. -/
theorem storage_round_trip :
    (∀ r : Record, (∀ e ∈ r.context.metadata.entries, e.2.Ordered ∧ e.2.RealFree) →
      ofBytes r.toBytes =
        if ∀ e ∈ r.context.metadata.entries, e.2.depth ≤ 124 then .ok r
        else .error .nestingLimit) ∧
    ∀ (octets : Bytes) (r : Record), ofBytes octets = .ok r →
      (∀ e ∈ r.context.metadata.entries, e.2.RealFree) → ofBytes r.toBytes = .ok r := by
  constructor
  · intro r hmetadata
    exact ofBytes_toBytes (fun e he => (hmetadata e he).1) fun e he => (hmetadata e he).2
  · intro octets r hread hreal
    have hbounded := bounded_of_ofBytes hread
    rw [ofBytes_toBytes (fun e he => (hbounded e he).1) hreal,
      if_pos fun e he => (hbounded e he).2]

/-- A record with arrays around each other among its metadata, which was to end before 1970. -/
def withArrays (more : Nat) : Record :=
  ⟨(Context.ofNames "u" "U" "c").withMetadata "n" (Token.Cipher.arrays more), some (-1)⟩

/-- Octets in which a context is an array without its last fields, and has an authority twice. -/
def terse : Bytes := Bytes.ofText "[[\"u\",\"U\",\"c\",[\"b\",\"a\",\"b\"]],null]"

/-- Metadata of 124 arrays are read back and those of 125 are not; and what the terse octets say is
read back from octets that say it in full. -/
theorem storage_round_trip_of_arrays :
    ofBytes (withArrays 123).toBytes = .ok (withArrays 123) ∧
    ofBytes (withArrays 124).toBytes = .error .nestingLimit ∧
    ∃ r, ofBytes terse = .ok r ∧ r.context.authorities.keys = ["a", "b"] ∧
      ofBytes r.toBytes = .ok r := by
  obtain ⟨hstored, hread⟩ := storage_round_trip
  have hmetadata (more : Nat) : ∀ e ∈ (withArrays more).context.metadata.entries,
      e.2.Ordered ∧ e.2.RealFree ∧ e.2.depth = more + 1 := by
    intro e he
    cases List.mem_singleton.1 he
    exact Token.Cipher.arrays_wellFormed more
  have harrays (more : Nat) := hstored (withArrays more) fun e he =>
    ⟨(hmetadata more e he).1, (hmetadata more e he).2.1⟩
  refine ⟨?_, ?_, ?_⟩
  · rw [harrays, if_pos fun e he => Nat.le_of_eq (hmetadata 123 e he).2.2]
  · have hdeep := (hmetadata 124 ("n", Token.Cipher.arrays 124) List.mem_cons_self).2.2
    rw [harrays, if_neg fun hle => ?_]
    have hle := hle ("n", Token.Cipher.arrays 124) List.mem_cons_self
    omega
  · have hterse : ofBytes terse =
        .ok ⟨(Context.ofNames "u" "U" "c").withAuthority "b" |>.withAuthority "a", none⟩ := by rfl
    exact ⟨_, hterse, rfl, hread terse _ hterse nofun⟩

end Record
end Turnstile.Session
