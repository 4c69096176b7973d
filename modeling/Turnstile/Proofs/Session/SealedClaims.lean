import Turnstile.Proofs.Json.Outcomes
import Turnstile.Proofs.Token.Sealing
import Turnstile.Session.Claims

/-!
# Claims in tokens

The named claims and the extra ones are written into one object and read out of it again, each by
its key. What an extra claim says under the key of a named one is never found among the extra ones
again.
-/

namespace Turnstile.Session.Claims

open Json (Value Field RecordLayout ReadError)
open Json.Reader
open Json.RecordLayout (Fills)

/-- The keys of the named claims. -/
def names : List String := fields.map (·.name)

/-- The named claims by themselves, as a record. -/
def layout : RecordLayout Draft Claims where
  name := "TokenClaims"
  fields := fields
  blank := ⟨none, none, none, none, none, ∅⟩
  finish := finish

theorem nodup_names : (layout.fields.map (·.name)).Nodup := by decide

variable {key : String} {depth : Nat} {draft : Draft}

/-- A named claim is read as a field of a record. -/
theorem member_of_mem (h : key ∈ names) :
    member depth draft key = layout.member depth draft key := by
  obtain ⟨field, hfield, rfl⟩ := List.mem_map.1 h
  have hfind : fields.find? (·.name = field.name) = some field :=
    RecordLayout.find?_field nodup_names hfield
  have hfind' : layout.fields.find? (·.name = field.name) = some field := hfind
  rw [member, RecordLayout.member, hfind, hfind']

/-- A claim that is not a named one is put among the extra ones. -/
theorem member_of_not_mem (h : key ∉ names) : member depth draft key = do
    colon
    return { draft with extra := draft.extra.insert key (← value depth) } := by
  have hfind : fields.find? (·.name = key) = none := by
    refine List.find?_eq_none.2 fun field hfield hname => h ?_
    exact List.mem_map.2 ⟨field, hfield, of_decide_eq_true hname⟩
  rw [member, hfind]

/-- A brace begins claims. -/
theorem read_brace (depth : Nat) (s : Bytes) :
    read (depth + 1) (byte '\x7b' :: s) =
      (objectBody (member depth) layout.blank >>= fun draft =>
        (finish draft : Except ReadError Claims) : Json.Reader Claims) s := rfl

/-! ## Read as written -/

/-- The members that are written for the named claims alone. -/
def namedMembers (c : Claims) : List (String × Value) :=
  [("principal_id", .string c.principalId), ("display_name", .string c.displayName),
    ("caller_type", .string c.callerType)] ++
  (match c.deviceId with
    | some device => [("device_id", .string device)]
    | none => []) ++
  [("issued_at_ms", .ofInt c.issuedAtMs.toInt)]

theorem members_eq (c : Claims) : c.members = c.namedMembers ++ c.extra.entries :=
  (List.append_assoc _ [_] _).symm

theorem mem_names_of_mem_namedMembers (c : Claims) {e : String × Value}
    (he : e ∈ c.namedMembers) : e.1 ∈ names := by
  have hkeys : ∀ key ∈ c.namedMembers.map (·.1), key ∈ names := by
    unfold namedMembers
    cases c.deviceId with
    | none =>
      change ∀ key ∈ ["principal_id", "display_name", "caller_type", "issued_at_ms"], key ∈ names
      decide +kernel
    | some device =>
      change ∀ key ∈ names, key ∈ names
      exact fun key hkey => hkey
  exact hkeys e.1 (List.mem_map.2 ⟨e, he, rfl⟩)

/-- The draft that the claims are made of. -/
def toDraft (c : Claims) (extra : Table Value) : Draft :=
  ⟨some c.principalId, some c.displayName, some c.callerType, c.deviceId.map some,
    some c.issuedAtMs, extra⟩

theorem finish_toDraft (c : Claims) : finish (c.toDraft c.extra) = .ok c := by
  obtain ⟨principalId, displayName, callerType, deviceId, issuedAtMs, extra⟩ := c
  cases deviceId <;> rfl

/-- The named claims are taken in. A device that is not named leaves its place empty. -/
theorem takesAll_namedMembers (c : Claims) :
    TakesAll (member depth) layout.blank c.namedMembers (.ok (c.toDraft ∅)) := by
  have hfills : ∃ written, (∀ field ∈ written, field ∈ fields) ∧
      Fills depth written layout.blank c.namedMembers (.ok (c.toDraft ∅)) := by
    obtain ⟨principalId, displayName, callerType, deviceId, issuedAtMs, extra⟩ := c
    cases deviceId with
    | none =>
      -- The fourth field is that of the device.
      refine ⟨fields.eraseIdx 3, fun _ => List.mem_of_mem_eraseIdx, ?_⟩
      refine .cons rfl (readsBack_text _) ?_
      refine .cons rfl (readsBack_text _) ?_
      refine .cons rfl (readsBack_text _) ?_
      exact .cons rfl (readsBack_signed _) (.nil _)
    | some device =>
      refine ⟨fields, fun _ hmem => hmem, ?_⟩
      refine .cons rfl (readsBack_text _) ?_
      refine .cons rfl (readsBack_text _) ?_
      refine .cons rfl (readsBack_text _) ?_
      refine .cons rfl (readsBack_some_text _) ?_
      exact .cons rfl (readsBack_signed _) (.nil _)
  obtain ⟨written, hfields, hfills⟩ := hfills
  have htaken : TakesAll (layout.member depth) layout.blank c.namedMembers (.ok (c.toDraft ∅)) :=
    hfills.takesAll nodup_names hfields
  exact htaken.of_same fun e he state => member_of_mem (c.mem_names_of_mem_namedMembers he)

/-- Claims are read back if no extra one has the key of a named one. -/
theorem readsBack (c : Claims) (hnames : ∀ key ∈ c.extra.keys, key ∉ names)
    (hordered : ∀ e ∈ c.extra.entries, e.2.Ordered) (hreal : ∀ e ∈ c.extra.entries, e.2.RealFree)
    (hdepth : ∀ e ∈ c.extra.entries, e.2.depth ≤ depth) :
    ReadsBack (read (depth + 1)) c.toValue c := by
  intro rest _
  have hput : ∀ e ∈ c.extra.entries, ∀ t, member depth (c.toDraft t) e.1 = do
      colon
      return c.toDraft (t.insert e.1 (← value depth)) := fun e he t =>
    member_of_not_mem (hnames e.1 (List.mem_map.2 ⟨e, he, rfl⟩))
  have hfront : c.extra.entries = Table.empty.entries ++ c.extra.entries := rfl
  have hextra := takesAll_insert c.toDraft hput hordered hreal hfront
  rw [if_pos (Value.membersDepth_le_iff.2 hdepth)] at hextra
  have hbody := (c.takesAll_namedMembers.append hextra).objectBody rest
  rw [← members_eq] at hbody
  rw [toValue, Value.ofChars_object, read_brace, Text.bind_of_ok hbody, finish_toDraft]
  rfl

/-- The token of claims without extra ones opens to these claims. -/
theorem openWith_issueValue_of_plain (cipher : Token.Cipher) (nonce : Token.Nonce) {c : Claims}
    (h : c.extra = ∅) : cipher.openWith parse (cipher.issueValue nonce c.toValue) = .ok c := by
  have hnone : ∀ e, e ∉ c.extra.entries := by
    intro e
    rw [h]
    exact List.not_mem_nil
  refine (cipher.openWith_issueValue nonce parse c.toValue c).2 (document_of_readsBack ?_)
  refine c.readsBack (fun key hkey => ?_) (fun e he => absurd he (hnone e))
    (fun e he => absurd he (hnone e)) fun e he => absurd he (hnone e)
  obtain ⟨e, he, -⟩ := List.mem_map.1 hkey
  exact absurd he (hnone e)

/-! ## Never read under a wrong key -/

/-- No extra claim has the key of a named one. -/
def Clear (extra : Table Value) : Prop := ∀ key ∈ extra.keys, key ∉ names

theorem yields_member (hdraft : Clear draft.extra) (key : String) :
    Yields (fun draft => Clear draft.extra) (member depth draft key) := by
  by_cases hkey : key ∈ names
  · rw [member_of_mem hkey]
    -- No field touches the extra claims.
    have hfields : ∀ field ∈ layout.fields,
        Yields (fun draft => Clear draft.extra) (field.read depth draft) := by
      simp only [layout, fields, List.forall_mem_cons]
      exact ⟨.after fun _ => .pure hdraft, .after fun _ => .pure hdraft,
        .after fun _ => .pure hdraft, .after fun _ => .pure hdraft, .after fun _ => .pure hdraft,
        nofun⟩
    exact RecordLayout.yields_member (P := fun draft : Draft => Clear draft.extra) hdraft hfields
      key
  · rw [member_of_not_mem hkey]
    refine .after fun _ => .after fun v => .pure fun found hfound => ?_
    obtain ⟨e, he, rfl⟩ := List.mem_map.1 hfound
    rcases Table.mem_insertEntry he with rfl | he
    · exact hkey
    · exact hdraft e.1 (List.mem_map.2 ⟨e, he, rfl⟩)

/-- The extra claims are those of the draft. -/
theorem extra_of_finish {c : Claims} (h : finish draft = .ok c) : c.extra = draft.extra := by
  obtain ⟨principalId, displayName, callerType, deviceId, issuedAtMs, extra⟩ := draft
  cases principalId <;> cases displayName <;> cases callerType <;> cases issuedAtMs <;> cases h
  rfl

/-- Claims that are read have no extra one under the key of a named one. -/
theorem clear_of_parse {text : Bytes} {c : Claims} (h : parse text = .ok c) : Clear c.extra := by
  have hread : Yields (fun c => Clear c.extra) (read nestingLimit) := by
    refine .opened (.bind (Q := fun draft => Clear draft.extra) ?members fun draft hdraft => ?made)
    case members => exact .objectBody nofun fun _ key hdraft => yields_member hdraft key
    case made =>
      refine .lift fun c hmade => ?_
      rw [extra_of_finish hmade]
      exact hdraft
  exact hread.document h

/-- The token of claims opens to these claims exactly if no extra one has the key of a named one. -/
theorem opened_iff_clear (cipher : Token.Cipher) (nonce : Token.Nonce) (c : Claims)
    (hextra : ∀ e ∈ c.extra.entries, e.2.Ordered ∧ e.2.RealFree ∧ e.2.depth ≤ 126) :
    cipher.openWith parse (cipher.issueValue nonce c.toValue) = .ok c ↔
      ∀ key ∈ c.extra.keys, key ∉
        ["principal_id", "display_name", "caller_type", "device_id", "issued_at_ms"] := by
  rw [cipher.openWith_issueValue]
  constructor
  · intro hparse
    exact clear_of_parse hparse
  · intro hclear
    exact document_of_readsBack (c.readsBack hclear (fun e he => (hextra e he).1)
      (fun e he => (hextra e he).2.1) fun e he => (hextra e he).2.2)

/-- Claims with 126 arrays around each other among the extra ones. -/
def withArrays (key : String) : Claims :=
  ⟨"u", "", "c", none, 0, Table.empty.insert key (Token.Cipher.arrays 125)⟩

/-- Extra arrays under the key of a tenant are found again; under that of a device, which the claims
do not name, they are not. -/
theorem opened_iff_clear_of_arrays : ∃ cipher,
    Token.Cipher.ofMaterial .aes256 [0x6B] = .ok cipher ∧
    cipher.openWith parse
      (cipher.issueValue (Vector.replicate 12 0) (withArrays "tenant").toValue) =
        .ok (withArrays "tenant") ∧
    cipher.openWith parse
      (cipher.issueValue (Vector.replicate 12 0) (withArrays "device_id").toValue) ≠
        .ok (withArrays "device_id") := by
  have hmaterial : ∃ cipher, Token.Cipher.ofMaterial .aes256 [0x6B] = .ok cipher := ⟨_, rfl⟩
  obtain ⟨cipher, hcipher⟩ := hmaterial
  obtain ⟨hordered, hreal, hdepth⟩ := Token.Cipher.arrays_wellFormed 125
  have hextra (key : String) : ∀ e ∈ (withArrays key).extra.entries,
      e.2.Ordered ∧ e.2.RealFree ∧ e.2.depth ≤ 126 := by
    intro e he
    cases List.mem_singleton.1 he
    exact ⟨hordered, hreal, Nat.le_of_eq hdepth⟩
  have hopened (key : String) :=
    opened_iff_clear cipher (Vector.replicate 12 0) (withArrays key) (hextra key)
  refine ⟨cipher, hcipher, (hopened "tenant").2 ?_, fun hsame => ?_⟩
  · change ∀ key ∈ ["tenant"], _
    decide +kernel
  · exact (hopened "device_id").1 hsame "device_id" List.mem_cons_self (by decide +kernel)

end Turnstile.Session.Claims
