import Turnstile.Proofs.Json.Records

/-!
# Records are read as they are written

Every kind of field is read back from the value that it is written as; a table whose values nest too
deep is refused. A record that is written as the object of its fields is read field by field: each
finds its place in the draft empty and fills it, and the draft is finished when all have been read,
unless one of them is refused.
-/

namespace Turnstile.Json

open Bytes (ofChars)
open Text (bind_of_error bind_of_ok map_of_ok)

/-- An integer of 64 bits, with or without sign, is a whole number. -/
theorem Value.ofInt_of_fits {n : Int} (hlower : -0x8000000000000000 ≤ n)
    (hupper : n < 0x10000000000000000) :
    Value.ofInt n = .number (.whole ⟨n, hlower, hupper⟩) := by
  rw [Value.ofInt, Whole.ofInt?, dif_pos ⟨hlower, hupper⟩]

/-- The number of an integer is no double. -/
theorem Value.realFree_of_ofInt {n : Int} {v : Value} (h : Value.ofInt n = v) : v.RealFree := by
  subst h
  unfold Value.ofInt
  cases Whole.ofInt? n with
  | none => exact True.intro
  | some w => exact True.intro

namespace Reader

variable {α σ : Type}

/-- Something is read back from the value that it is written as, whatever closes behind that. -/
def ReadsBack (reader : Reader α) (v : Value) (a : α) : Prop :=
  ∀ rest, Closed rest → reader (ofChars v.render ++ rest) = .ok (a, rest)

/-- A value is refused, whatever closes behind it. -/
def Refuses (reader : Reader α) (v : Value) (e : ReadError) : Prop :=
  ∀ rest, Closed rest → reader (ofChars v.render ++ rest) = .error e

/-- A whole text is read back as what it is written for. -/
theorem document_of_readsBack {reader : Reader α} {v : Value} {a : α} (h : ReadsBack reader v a) :
    document reader v.toBytes = .ok a := by
  have hread := h [] nofun
  rw [List.append_nil] at hread
  rw [Value.toBytes, Value.toText, Bytes.ofText_ofList, document, hread]
  rfl

/-- A whole text is refused with the value that it is written for. -/
theorem document_of_refuses {reader : Reader α} {v : Value} {e : ReadError}
    (h : Refuses reader v e) : document reader v.toBytes = .error e := by
  have hread := h [] nofun
  rw [List.append_nil] at hread
  rw [Value.toBytes, Value.toText, Bytes.ofText_ofList, document, hread]
  rfl

/-- What is expected to begin with a byte is read if it does. -/
theorem opened_cons {opening : Char} (h : isBlank (byte opening) = false) (expected : Expected)
    (body : Reader α) (rest : Bytes) :
    opened opening expected body (byte opening :: rest) = body rest := by
  rw [opened, bind_of_ok (peek_cons h rest)]
  dsimp only
  rw [if_pos rfl, advance_bind]

theorem readsBack_text (s : String) : ReadsBack text (.string s) s :=
  fun rest _ => text_render s rest

theorem readsBack_flag (b : Bool) : ReadsBack flag (.bool b) b := by
  intro rest _
  cases b with
  | true => rfl
  | false => rfl

/-- The text of a whole number begins with its sign or with a digit. -/
theorem ofChars_intText (n : Int) : ∃ b rest, ofChars (intText n) = b :: rest ∧
    isBlank b = false ∧ b ≠ byte 'n' := by
  unfold intText
  split
  · rw [ofChars_cons_of_lt (by decide)]
    exact ⟨_, _, rfl, rfl, by decide⟩
  · obtain ⟨b, rest, hbytes, hdigit⟩ := ofChars_toDigits n.natAbs
    exact ⟨b, rest, hbytes, isBlank_of_isDigit hdigit, ne_of_isDigit hdigit rfl⟩

/-- A whole number is read back by the type that accepts it. -/
theorem readsBack_number (expected : Expected) {accept : Whole → Option α} {w : Whole} {a : α}
    (haccept : accept w = some a) :
    ReadsBack (numberFor expected accept) (.number (.whole w)) a := by
  intro rest hrest
  have hnumber (positive : Bool) := number_digits positive (natAbs_le w) hrest
  have hsame := wholeOrReal_natAbs w
  rw [Value.render, Number.render]
  unfold intText
  split
  · rename_i hneg
    rw [decide_eq_false (Int.not_le.2 hneg)] at hsame
    rw [ofChars_cons_of_lt (by decide), List.cons_append, numberFor, bind_of_ok (peek_cons rfl _)]
    dsimp only
    rw [if_pos rfl, advance_bind, bind_of_ok (hnumber false), hsame]
    dsimp only
    rw [haccept]
    rfl
  · rename_i hpos
    rw [decide_eq_true (Int.not_lt.1 hpos)] at hsame
    have hread := hnumber true
    obtain ⟨b, more, hbytes, hdigit⟩ := ofChars_toDigits w.val.natAbs
    have hne : b ≠ byte '-' := ne_of_isDigit hdigit rfl
    rw [hbytes, List.cons_append, hsame] at hread
    rw [hbytes, List.cons_append, numberFor, bind_of_ok (peek_cons (isBlank_of_isDigit hdigit) _)]
    dsimp only
    rw [if_neg hne, if_pos hdigit, bind_of_ok hread]
    dsimp only
    rw [haccept]
    rfl

theorem readsBack_unsigned (n : UInt64) : ReadsBack unsigned (.ofInt n.toNat) n := by
  have hlt : n.toNat < UInt64.size := n.toNat_lt
  have hsize : UInt64.size = 0x10000000000000000 := rfl
  rw [Value.ofInt_of_fits (by omega) (by omega)]
  refine readsBack_number .unsigned ?_
  rw [if_pos (Int.natCast_nonneg _), Int.toNat_natCast, UInt64.ofNat_toNat]

theorem readsBack_signed (n : Int64) : ReadsBack signed (.ofInt n.toInt) n := by
  have hlower : -0x8000000000000000 ≤ n.toInt := n.le_toInt
  have hupper : n.toInt < 0x8000000000000000 := n.toInt_lt
  rw [Value.ofInt_of_fits hlower (by omega)]
  refine readsBack_number .signed ?_
  rw [if_pos hupper, Int64.ofInt_toInt]

/-- Nothing is written as null. -/
theorem readsBack_none (reader : Reader α) : ReadsBack (optional reader) .null none := by
  intro rest _
  rfl

/-- Something is written as itself, if that does not begin as null does. -/
theorem readsBack_some {reader : Reader α} {v : Value} {a : α} {b : UInt8} {more : Bytes}
    (h : ReadsBack reader v a) (hbytes : ofChars v.render = b :: more) (hblank : isBlank b = false)
    (hnull : b ≠ byte 'n') : ReadsBack (optional reader) v (some a) := by
  intro rest hrest
  have hread := h rest hrest
  have hne : ¬some b = some (byte 'n') := fun heq => hnull (Option.some.inj heq)
  rw [hbytes, List.cons_append] at hread ⊢
  rw [optional, bind_of_ok (peek_cons hblank _), if_neg hne]
  exact map_of_ok some hread

/-- A number is something. -/
theorem readsBack_some_ofInt {reader : Reader α} {n : Int} {a : α}
    (h : ReadsBack reader (.ofInt n) a) (hlower : -0x8000000000000000 ≤ n)
    (hupper : n < 0x10000000000000000) : ReadsBack (optional reader) (.ofInt n) (some a) := by
  obtain ⟨b, more, hbytes, hblank, hnull⟩ := ofChars_intText n
  rw [Value.ofInt_of_fits hlower hupper] at h ⊢
  exact readsBack_some h hbytes hblank hnull

theorem readsBack_some_unsigned (n : UInt64) :
    ReadsBack (optional unsigned) (.ofInt n.toNat) (some n) := by
  have hlt : n.toNat < UInt64.size := n.toNat_lt
  have hsize : UInt64.size = 0x10000000000000000 := rfl
  exact readsBack_some_ofInt (readsBack_unsigned n) (by omega) (by omega)

theorem readsBack_some_signed (n : Int64) :
    ReadsBack (optional signed) (.ofInt n.toInt) (some n) := by
  have hlower : -0x8000000000000000 ≤ n.toInt := n.le_toInt
  have hupper : n.toInt < 0x8000000000000000 := n.toInt_lt
  exact readsBack_some_ofInt (readsBack_signed n) hlower (by omega)

theorem readsBack_some_text (s : String) :
    ReadsBack (optional text) (.string s) (some s) :=
  readsBack_some (readsBack_text s) (ofChars_quoted s) rfl (by decide)

/-- Either of two names is read, if they are different. -/
theorem readsBack_oneOf (name : α → String) (first second : α) (hne : name second ≠ name first)
    (depth : Nat) {choice : α} (h : choice = first ∨ choice = second) :
    ReadsBack (oneOf (name first, first) (name second, second) depth) (.string (name choice))
      choice := by
  intro rest _
  rw [Value.render, ofChars_quoted, List.cons_append, List.append_assoc, oneOf,
    bind_of_ok (peek_cons (by decide) _)]
  dsimp only
  rw [if_pos rfl, advance_bind, List.singleton_append,
    bind_of_ok (stringBody_quoted (name choice) rest)]
  rcases h with rfl | rfl
  · rw [if_pos rfl]
    rfl
  · rw [if_neg hne, if_pos rfl]
    rfl

/-- Items are read back one after another. -/
theorem foldItems_written {item : Reader α} {write : α → Value} {items : List α}
    (hreal : ∀ a ∈ items, (write a).RealFree) (h : ∀ a ∈ items, ReadsBack item (write a) a)
    {fuel : Bytes} (hfuel : items.length < fuel.length) (first : Bool) (acc : List α)
    (rest : Bytes) :
    foldItems (fun items => do return (← item) :: items) fuel first acc
      (ofChars (Value.itemsText first (items.map write)) ++ byte ']' :: rest) =
        .ok (items.reverse ++ acc, byte ']' :: rest) := by
  induction items generalizing fuel first acc with
  | nil =>
    cases fuel with
    | nil => cases hfuel
    | cons _ fuel => cases first <;> rfl
  | cons a items ih =>
    cases fuel with
    | nil => cases hfuel
    | cons _ fuel =>
      have hnext := Value.nextItem_itemsText (hreal a List.mem_cons_self) (items.map write) first
        (byte ']' :: rest)
      have hread := h a List.mem_cons_self _ (Value.closed_items (items.map write) rest)
      have hpush : (do return (← item) :: acc : Reader (List α))
          (ofChars (write a).render ++
            (ofChars (Value.renderMoreItems (items.map write)) ++ byte ']' :: rest)) =
          .ok (a :: acc, ofChars (Value.itemsText false (items.map write)) ++ byte ']' :: rest) :=
        bind_of_ok hread
      have hmore := ih (fun b hb => hreal b (List.mem_cons_of_mem a hb))
        (fun b hb => h b (List.mem_cons_of_mem a hb)) (Nat.lt_of_succ_lt_succ hfuel) false
        (a :: acc)
      rw [List.map_cons, foldItems, bind_of_ok hnext, if_pos rfl, bind_of_ok hpush, hmore,
        List.reverse_cons, List.append_assoc]
      rfl

theorem readsBack_list {item : Nat → Reader α} {depth : Nat} {write : α → Value}
    {items : List α} (hreal : ∀ a ∈ items, (write a).RealFree)
    (h : ∀ a ∈ items, ReadsBack (item depth) (write a) a) :
    ReadsBack (list item (depth + 1)) (.array (items.map write)) items := by
  intro rest _
  have hall : Value.ItemsRealFree (items.map write) := by
    induction items with
    | nil => exact trivial
    | cons a items ih =>
      exact ⟨hreal a List.mem_cons_self, ih (fun b hb => hreal b (List.mem_cons_of_mem a hb))
        fun b hb => h b (List.mem_cons_of_mem a hb)⟩
  have hlength : items.length <
      (ofChars (Value.itemsText true (items.map write)) ++ byte ']' :: rest).length := by
    simpa using Value.length_lt_items hall rest
  have hitems := foldItems_written hreal h hlength true [] rest
  rw [List.append_nil] at hitems
  rw [Value.ofChars_array, list, opened_cons (by decide), nested,
    bind_of_ok (arrayBody_of_ok hitems), List.reverse_reverse]
  rfl

/-! ## Members in a row -/

/-- A step takes in the value of a member, whatever closes behind it. -/
def TakesIn (step : σ → String → Reader σ) (state : σ) (key : String) (v : Value) (next : σ) :
    Prop :=
  ∀ rest, Closed rest →
    step state key (byte ':' :: (ofChars v.render ++ rest)) = .ok (next, rest)

/-- A step takes in members one after another, or fails at the first one that it does not take. -/
inductive TakesAll (step : σ → String → Reader σ) :
    σ → List (String × Value) → Except ReadError σ → Prop
  | nil (state : σ) : TakesAll step state [] (.ok state)
  | cons {state next : σ} {key : String} {v : Value} {members : List (String × Value)}
      {outcome : Except ReadError σ} (hstep : TakesIn step state key v next)
      (more : TakesAll step next members outcome) :
      TakesAll step state ((key, v) :: members) outcome
  | fault {state : σ} {key : String} {v : Value} {members : List (String × Value)} {e : ReadError}
      (hstep : ∀ rest, Closed rest →
        step state key (byte ':' :: (ofChars v.render ++ rest)) = .error e) :
      TakesAll step state ((key, v) :: members) (.error e)

namespace TakesAll

variable {step : σ → String → Reader σ} {state : σ} {members : List (String × Value)}
  {outcome : Except ReadError σ}

/-- Members are taken in on the way to the closing brace. -/
theorem foldMembers (h : TakesAll step state members outcome) {fuel : Bytes}
    (hfuel : members.length < fuel.length) (first : Bool) (rest : Bytes) :
    Reader.foldMembers step fuel first state
      (ofChars (Value.membersText first members) ++ byte '\x7d' :: rest) =
        outcome.map (·, byte '\x7d' :: rest) := by
  induction h generalizing fuel first with
  | nil =>
    cases fuel with
    | nil => cases hfuel
    | cons _ fuel => cases first <;> rfl
  | @cons _ _ key v members _ hstep more ih =>
    cases fuel with
    | nil => cases hfuel
    | cons _ fuel =>
      have hnext := Value.nextKey_membersText key v members first (byte '\x7d' :: rest)
      have htaken := hstep _ (Value.closed_members members rest)
      have hmore := ih (Nat.lt_of_succ_lt_succ hfuel) false
      rw [Reader.foldMembers, bind_of_ok hnext]
      dsimp only
      rw [bind_of_ok htaken]
      exact hmore
  | @fault _ key v members _ hstep =>
    cases fuel with
    | nil => cases hfuel
    | cons _ fuel =>
      have hnext := Value.nextKey_membersText key v members first (byte '\x7d' :: rest)
      have hfault := hstep _ (Value.closed_members members rest)
      rw [Reader.foldMembers, bind_of_ok hnext]
      dsimp only
      rw [bind_of_error hfault]
      rfl

/-- Members behind others are taken in after those. -/
theorem append {last : σ} {more : List (String × Value)}
    (h : TakesAll step state members (.ok last)) (hmore : TakesAll step last more outcome) :
    TakesAll step state (members ++ more) outcome := by
  generalize hlast : (Except.ok last : Except ReadError σ) = reached at h
  induction h with
  | nil => cases hlast; exact hmore
  | cons hstep _ ih => exact .cons hstep (ih hlast)
  | fault _ => cases hlast

/-- Steps that treat the keys of some members alike take these in alike. -/
theorem of_same {step' : σ → String → Reader σ} (h : TakesAll step state members outcome)
    (hsame : ∀ e ∈ members, ∀ state, step' state e.1 = step state e.1) :
    TakesAll step' state members outcome := by
  induction h with
  | nil state => exact .nil state
  | cons hstep _ ih =>
    refine .cons (fun rest hrest => ?_) (ih fun e he => hsame e (List.mem_cons_of_mem _ he))
    rw [hsame _ List.mem_cons_self]
    exact hstep rest hrest
  | fault hstep =>
    refine .fault fun rest hrest => ?_
    rw [hsame _ List.mem_cons_self]
    exact hstep rest hrest

/-- An object is read when all of its members have been taken in. -/
theorem objectBody {last : σ} (h : TakesAll step state members (.ok last)) (rest : Bytes) :
    Reader.objectBody step state
      (ofChars (Value.membersText true members) ++ byte '\x7d' :: rest) = .ok (last, rest) :=
  objectBody_of_ok (h.foldMembers (Value.length_lt_members members rest) true rest)

/-- An object is refused with the first member that is. -/
theorem objectBody_error {e : ReadError} (h : TakesAll step state members (.error e))
    (rest : Bytes) :
    Reader.objectBody step state
      (ofChars (Value.membersText true members) ++ byte '\x7d' :: rest) = .error e :=
  objectBody_of_error (h.foldMembers (Value.length_lt_members members rest) true rest)

end TakesAll

end Reader

namespace RecordLayout

open Reader

variable {δ α β : Type} {layout : RecordLayout δ α} {depth : Nat}

/-- Members that are written for some fields, in their order, fill a draft one after another, up to
the first one that is refused. -/
inductive Fills (depth : Nat) :
    List (Field δ) → δ → List (String × Value) → Except ReadError δ → Prop
  | nil (draft : δ) : Fills depth [] draft [] (.ok draft)
  | cons {β : Type} {name : String} {mayEndBefore : Bool} {get : δ → Option β} {put : δ → β → δ}
      {read : Nat → Reader β} {fields : List (Field δ)} {draft : δ} {v : Value} {b : β}
      {members : List (String × Value)} {outcome : Except ReadError δ} (hempty : get draft = none)
      (hread : ReadsBack (read depth) v b) (more : Fills depth fields (put draft b) members outcome) :
      Fills depth (.of name mayEndBefore get put read :: fields) draft ((name, v) :: members) outcome
  | fault {β : Type} {name : String} {mayEndBefore : Bool} {get : δ → Option β} {put : δ → β → δ}
      {read : Nat → Reader β} {fields : List (Field δ)} {draft : δ} {v : Value} {e : ReadError}
      {members : List (String × Value)} (hempty : get draft = none)
      (hread : Refuses (read depth) v e) :
      Fills depth (.of name mayEndBefore get put read :: fields) draft ((name, v) :: members)
        (.error e)

/-- A field is found under its name, if no other one has it. -/
theorem find?_field {fields : List (Field δ)} (hnames : (fields.map (·.name)).Nodup)
    {field : Field δ} (hmem : field ∈ fields) :
    fields.find? (·.name = field.name) = some field := by
  induction fields with
  | nil => cases hmem
  | cons first more ih =>
    obtain ⟨hfirst, hmore⟩ := List.nodup_cons.1 hnames
    rcases List.mem_cons.1 hmem with rfl | hmem
    · exact List.find?_cons_of_pos (by simp)
    · have hne : first.name ≠ field.name := by
        intro heq
        exact hfirst (List.mem_map.2 ⟨field, hmem, heq.symm⟩)
      rw [List.find?_cons_of_neg (by simpa using hne)]
      exact ih hmore hmem

/-- The value of a field whose place in the draft is empty is read as that of the field. -/
theorem member_of {name : String} {mayEndBefore : Bool} {get : δ → Option β} {put : δ → β → δ}
    {read : Nat → Reader β} {draft : δ} (hnames : (layout.fields.map (·.name)).Nodup)
    (hmem : .of name mayEndBefore get put read ∈ layout.fields) (hempty : get draft = none)
    (s : Bytes) :
    layout.member depth draft name (byte ':' :: s) =
      (read depth >>= fun b => pure (put draft b) : Reader δ) s := by
  have hfind : layout.fields.find? (·.name = name) = some (.of name mayEndBefore get put read) :=
    find?_field hnames hmem
  have habsent : ¬(get draft).isSome = true := by simp [hempty]
  rw [member, hfind]
  dsimp only [Field.of]
  rw [if_neg habsent, bind_of_ok (colon_cons _)]

/-- The members of some fields are taken in as they fill the draft. -/
theorem Fills.takesAll (hnames : (layout.fields.map (·.name)).Nodup) {fields : List (Field δ)}
    {draft : δ} {members : List (String × Value)} {outcome : Except ReadError δ}
    (h : Fills depth fields draft members outcome)
    (hfields : ∀ field ∈ fields, field ∈ layout.fields) :
    TakesAll (layout.member depth) draft members outcome := by
  induction h with
  | nil draft => exact .nil draft
  | cons hempty hread more ih =>
    refine .cons (fun rest hrest => ?_)
      (ih fun field hmem => hfields field (List.mem_cons_of_mem _ hmem))
    rw [member_of hnames (hfields _ List.mem_cons_self) hempty, bind_of_ok (hread rest hrest)]
    rfl
  | fault hempty hread =>
    refine .fault fun rest hrest => ?_
    rw [member_of hnames (hfields _ List.mem_cons_self) hempty, bind_of_error (hread rest hrest)]

/-- A record is read back from its fields. -/
theorem Fills.readsBack (hnames : (layout.fields.map (·.name)).Nodup)
    {members : List (String × Value)} {draft : δ} {a : α}
    (h : Fills depth layout.fields layout.blank members (.ok draft))
    (hfinish : layout.finish draft = .ok a) :
    ReadsBack (layout.read (depth + 1)) (.object members) a := by
  intro rest _
  have hbody := (h.takesAll hnames fun _ hmem => hmem).objectBody rest
  rw [Value.ofChars_object, read_brace, bind_of_ok hbody, hfinish]
  rfl

/-- A record is refused with the first of its fields that is. -/
theorem Fills.refuses (hnames : (layout.fields.map (·.name)).Nodup)
    {members : List (String × Value)} {e : ReadError}
    (h : Fills depth layout.fields layout.blank members (.error e)) :
    Refuses (layout.read (depth + 1)) (.object members) e := by
  intro rest _
  have hbody := (h.takesAll hnames fun _ hmem => hmem).objectBody_error rest
  rw [Value.ofChars_object, read_brace, bind_of_error hbody]

end RecordLayout
end Turnstile.Json
