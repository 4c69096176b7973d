import Turnstile.Proofs.Json.Scalars

/-!
# Reading values back

A value without doubles is read back from its compact text, as long as its arrays and objects nest
no deeper than the reader goes; a deeper one is refused. Items are read one after another, and so
are members, which come in the order of their keys.
-/

namespace Turnstile.Json

open Bytes (ofChars)
open Text (bind_of_error bind_of_ok get_bind map_of_ok set_bind)

namespace Reader

/-! ## Items and members in a row -/

/-- Reads one more item. -/
def pushItem (depth : Nat) (items : List Value) : Reader (List Value) := do
  return (← value depth) :: items

/-- Reads the value of one more member. -/
def putMember (depth : Nat) (members : List (String × Value)) (key : String) :
    Reader (List (String × Value)) := do
  colon
  return Table.insertEntry key (← value depth) members

section Steps

variable {depth : Nat} {s rest : Bytes} {v : Value} {e : ReadError}

/-- A colon is passed over. -/
theorem colon_cons (s : Bytes) : colon (byte ':' :: s) = .ok ((), s) := rfl

/-- An item that is read comes before those that have been read. -/
theorem pushItem_of_ok (h : value depth s = .ok (v, rest)) (items : List Value) :
    pushItem depth items s = .ok (v :: items, rest) := by
  rw [pushItem, bind_of_ok h]
  rfl

/-- An item that is not read ends the array. -/
theorem pushItem_of_error (h : value depth s = .error e) (items : List Value) :
    pushItem depth items s = .error e := by
  rw [pushItem, bind_of_error h]

/-- A member that is read is put among those that have been read. -/
theorem putMember_of_ok (h : value depth s = .ok (v, rest)) (members : List (String × Value))
    (key : String) : putMember depth members key (byte ':' :: s) =
      .ok (Table.insertEntry key v members, rest) := by
  rw [putMember, bind_of_ok (colon_cons s), bind_of_ok h]
  rfl

/-- A member that is not read ends the object. -/
theorem putMember_of_error (h : value depth s = .error e) (members : List (String × Value))
    (key : String) : putMember depth members key (byte ':' :: s) = .error e := by
  rw [putMember, bind_of_ok (colon_cons s), bind_of_error h]

end Steps

/-- What a value is read by, with one level of nesting more. -/
theorem value_succ (depth : Nat) : value (depth + 1) = valueWith
    (do
      let items ← arrayBody (pushItem depth) []
      pure (.array items.reverse))
    (do
      let members ← objectBody (putMember depth) []
      pure (.object members)) := rfl

/-- A bracket begins an array. -/
theorem valueWith_array (array object : Reader Value) (s : Bytes) :
    valueWith array object (byte '[' :: s) = array s := rfl

/-- A brace begins an object. -/
theorem valueWith_object (array object : Reader Value) (s : Bytes) :
    valueWith array object (byte '\x7b' :: s) = object s := rfl

/-- A value follows in the first place. -/
theorem nextItem_first {b : UInt8} (hblank : isBlank b = false) (hclose : b ≠ byte ']')
    (rest : Bytes) : nextItem true (b :: rest) = .ok (true, b :: rest) := by
  rw [nextItem, bind_of_ok (peek_cons hblank rest)]
  dsimp only
  rw [if_neg hclose]
  rfl

/-- A value follows after a comma. -/
theorem nextItem_comma {b : UInt8} (hblank : isBlank b = false) (hclose : b ≠ byte ']')
    (rest : Bytes) : nextItem false (byte ',' :: b :: rest) = .ok (true, b :: rest) := by
  rw [nextItem, bind_of_ok (peek_cons rfl _)]
  dsimp only
  rw [if_neg (by decide), if_neg (by decide), if_pos rfl,
    advance_bind, bind_of_ok (peek_cons hblank rest)]
  dsimp only
  rw [if_neg hclose]
  rfl

/-- A key follows in the first place. -/
theorem nextKey_first (key : String) (rest : Bytes) :
    nextKey true (ofChars (quoted key) ++ rest) = .ok (some key, rest) := by
  rw [ofChars_quoted, List.cons_append, List.append_assoc]
  exact map_of_ok some (stringBody_quoted key rest)

/-- A key follows after a comma. -/
theorem nextKey_comma (key : String) (rest : Bytes) :
    nextKey false (byte ',' :: (ofChars (quoted key) ++ rest)) = .ok (some key, rest) := by
  rw [ofChars_quoted, List.cons_append, List.append_assoc]
  exact map_of_ok some (stringBody_quoted key rest)

section Bodies

variable {σ : Type} {s rest : Bytes} {start result : σ}

/-- An array ends with the bracket behind its items. -/
theorem arrayBody_of_ok {step : σ → Reader σ}
    (h : foldItems step s true start s = .ok (result, byte ']' :: rest)) :
    arrayBody step start s = .ok (result, rest) := by
  rw [arrayBody, get_bind, bind_of_ok h]
  rfl

/-- An array fails with its items. -/
theorem arrayBody_of_error {step : σ → Reader σ} {e : ReadError}
    (h : foldItems step s true start s = .error e) : arrayBody step start s = .error e := by
  rw [arrayBody, get_bind, bind_of_error h]

/-- An object ends with the brace behind its members. -/
theorem objectBody_of_ok {step : σ → String → Reader σ}
    (h : foldMembers step s true start s = .ok (result, byte '\x7d' :: rest)) :
    objectBody step start s = .ok (result, rest) := by
  rw [objectBody, get_bind, bind_of_ok h]
  rfl

/-- An object fails with its members. -/
theorem objectBody_of_error {step : σ → String → Reader σ} {e : ReadError}
    (h : foldMembers step s true start s = .error e) : objectBody step start s = .error e := by
  rw [objectBody, get_bind, bind_of_error h]

end Bodies

end Reader

namespace Value

open Reader

/-- The text of a value begins with a byte that is neither blank nor a bracket that closes. -/
theorem ofChars_render (v : Value) (hreal : v.RealFree) :
    ∃ b rest, ofChars v.render = b :: rest ∧ isBlank b = false ∧ b ≠ byte ']' := by
  cases v with
  | null => exact ⟨_, _, rfl, rfl, by decide⟩
  | bool b => cases b <;> exact ⟨_, _, rfl, rfl, by decide⟩
  | number n =>
    cases n with
    | real x => exact hreal.elim
    | whole w =>
      rw [render, Number.render, intText]
      split
      · rw [ofChars_cons_of_lt (by decide)]
        exact ⟨_, _, rfl, rfl, by decide⟩
      · obtain ⟨b, rest, hbytes, hdigit⟩ := ofChars_toDigits w.val.natAbs
        exact ⟨b, rest, hbytes, isBlank_of_isDigit hdigit, ne_of_isDigit hdigit rfl⟩
  | string text => exact ⟨_, _, ofChars_quoted text, rfl, by decide⟩
  | array items =>
    rw [render, ofChars_cons_of_lt (by decide)]
    exact ⟨_, _, rfl, rfl, by decide⟩
  | object members =>
    rw [render, ofChars_cons_of_lt (by decide)]
    exact ⟨_, _, rfl, rfl, by decide⟩

/-- After an item something closes. -/
theorem closed_items (items : List Value) (rest : Bytes) :
    Closed (ofChars (renderMoreItems items) ++ byte ']' :: rest) := by
  cases items with
  | nil => exact fun b hb => .inr (.inl (Option.some.inj hb).symm)
  | cons v items =>
    rw [renderMoreItems, ofChars_cons_of_lt (by decide)]
    exact fun b hb => .inl (Option.some.inj hb).symm

/-- After a member something closes. -/
theorem closed_members (members : List (String × Value)) (rest : Bytes) :
    Closed (ofChars (renderMoreMembers members) ++ byte '\x7d' :: rest) := by
  cases members with
  | nil => exact fun b hb => .inr (.inr (Option.some.inj hb).symm)
  | cons member members =>
    rw [renderMoreMembers, ofChars_cons_of_lt (by decide)]
    exact fun b hb => .inl (Option.some.inj hb).symm

/-- The text of items of which the first one is the first of all, or comes after another one. -/
def itemsText (first : Bool) (items : List Value) : List Char :=
  if first then renderItems items else renderMoreItems items

/-- The text of members of which the first one is the first of all, or comes after another one. -/
def membersText (first : Bool) (members : List (String × Value)) : List Char :=
  if first then renderMembers members else renderMoreMembers members

/-- The bytes of an array. -/
theorem ofChars_array (items : List Value) (rest : Bytes) :
    ofChars (array items).render ++ rest =
      byte '[' :: (ofChars (itemsText true items) ++ byte ']' :: rest) := by
  rw [render, ofChars_cons_of_lt (by decide), Bytes.ofChars_append, List.cons_append,
    List.append_assoc]
  rfl

/-- The bytes of an object. -/
theorem ofChars_object (members : List (String × Value)) (rest : Bytes) :
    ofChars (object members).render ++ rest =
      byte '\x7b' :: (ofChars (membersText true members) ++ byte '\x7d' :: rest) := by
  rw [render, ofChars_cons_of_lt (by decide), Bytes.ofChars_append, List.cons_append,
    List.append_assoc]
  rfl

/-- Where an item follows, the reader moves to it. -/
theorem nextItem_itemsText {v : Value} (hreal : v.RealFree) (items : List Value) (first : Bool)
    (rest : Bytes) : nextItem first (ofChars (itemsText first (v :: items)) ++ rest) =
      .ok (true, ofChars v.render ++ (ofChars (renderMoreItems items) ++ rest)) := by
  obtain ⟨b, more, hbytes, hblank, hclose⟩ := ofChars_render v hreal
  cases first with
  | true =>
    rw [itemsText, if_pos rfl, renderItems, Bytes.ofChars_append, hbytes, List.append_assoc,
      List.cons_append]
    exact nextItem_first hblank hclose _
  | false =>
    rw [itemsText, if_neg (by decide), renderMoreItems, ofChars_cons_of_lt (by decide),
      Bytes.ofChars_append, hbytes, List.cons_append, List.append_assoc, List.cons_append]
    exact nextItem_comma hblank hclose _

/-- Where a member follows, the reader moves behind its key. -/
theorem nextKey_membersText (key : String) (v : Value) (members : List (String × Value))
    (first : Bool) (rest : Bytes) :
    nextKey first (ofChars (membersText first ((key, v) :: members)) ++ rest) =
      .ok (some key, byte ':' :: (ofChars v.render ++
        (ofChars (renderMoreMembers members) ++ rest))) := by
  have hvalue : ofChars (':' :: (v.render ++ renderMoreMembers members)) ++ rest =
      byte ':' :: (ofChars v.render ++ (ofChars (renderMoreMembers members) ++ rest)) := by
    rw [ofChars_cons_of_lt (by decide), Bytes.ofChars_append, List.cons_append, List.append_assoc]
  cases first with
  | true =>
    rw [membersText, if_pos rfl, renderMembers, Bytes.ofChars_append, List.append_assoc, hvalue]
    exact nextKey_first key _
  | false =>
    rw [membersText, if_neg (by decide), renderMoreMembers, ofChars_cons_of_lt (by decide),
      Bytes.ofChars_append, List.cons_append, List.append_assoc, hvalue]
    exact nextKey_comma key _

/-- Items take at least one byte each. -/
theorem length_lt_items {items : List Value} (hreal : ItemsRealFree items) (rest : Bytes) :
    items.length < (ofChars (itemsText true items) ++ byte ']' :: rest).length := by
  have hmore (items : List Value) : items.length ≤ (renderMoreItems items).length := by
    induction items with
    | nil => exact Nat.le_refl 0
    | cons v items ih =>
      rw [renderMoreItems, List.length_cons, List.length_cons, List.length_append]
      omega
  have hbytes (chars : List Char) := Bytes.length_le_length_ofChars chars
  rw [itemsText, if_pos rfl, List.length_append, List.length_cons]
  cases items with
  | nil => exact Nat.zero_lt_succ _
  | cons v items =>
    obtain ⟨b, front, hfront, -⟩ := ofChars_render v hreal.1
    have hpos := congrArg List.length hfront
    have hitems := Nat.le_trans (hmore items) (hbytes _)
    rw [List.length_cons] at hpos
    rw [renderItems, Bytes.ofChars_append, List.length_append, List.length_cons]
    omega

/-- Members take at least one byte each. -/
theorem length_lt_members (members : List (String × Value)) (rest : Bytes) :
    members.length < (ofChars (membersText true members) ++ byte '\x7d' :: rest).length := by
  have hmore (members : List (String × Value)) :
      members.length ≤ (renderMoreMembers members).length := by
    induction members with
    | nil => exact Nat.le_refl 0
    | cons member members ih =>
      rw [renderMoreMembers, List.length_cons, List.length_cons, List.length_append,
        List.length_cons, List.length_append]
      omega
  have hchars : members.length ≤ (renderMembers members).length := by
    cases members with
    | nil => exact Nat.le_refl 0
    | cons member members =>
      have hmembers := hmore members
      rw [renderMembers, List.length_append, List.length_cons, List.length_cons,
        List.length_append]
      omega
  have hbytes := Bytes.length_le_length_ofChars (renderMembers members)
  rw [membersText, if_pos rfl, List.length_append, List.length_cons]
  omega

mutual

/-- A value is read back if it does not nest too deep. -/
theorem value_render : ∀ (v : Value), v.Ordered → v.RealFree → ∀ (depth : Nat) {rest : Bytes},
    Closed rest → Reader.value depth (ofChars v.render ++ rest) =
      if v.depth ≤ depth then .ok (v, rest) else .error .nestingLimit
  | .null, _, _, depth, rest, _ => by cases depth <;> rfl
  | .bool b, _, _, depth, rest, _ => by cases depth <;> cases b <;> rfl
  | .number (.real x), _, hreal, _, _, _ => hreal.elim
  | .number (.whole w), _, _, depth, rest, hrest => by
    cases depth <;> exact valueWith_whole _ _ w hrest
  | .string text, _, _, depth, rest, _ => by
    cases depth <;> exact valueWith_string _ _ text rest
  | .array items, hordered, hreal, 0, rest, _ => by
    rw [ofChars_array]
    rfl
  | .array items, hordered, hreal, depth + 1, rest, _ => by
    have hitems := foldItems_itemsText items hordered hreal depth true _
      (length_lt_items hreal rest) [] rest
    rw [List.append_nil] at hitems
    rw [ofChars_array, value_succ, valueWith_array]
    by_cases hdepth : itemsDepth items ≤ depth
    · rw [if_pos hdepth] at hitems
      rw [if_pos (by rw [Value.depth]; exact Nat.succ_le_succ hdepth),
        bind_of_ok (arrayBody_of_ok hitems), List.reverse_reverse]
      rfl
    · rw [if_neg hdepth] at hitems
      rw [if_neg (by rw [Value.depth]; exact fun hle => hdepth (Nat.le_of_succ_le_succ hle)),
        bind_of_error (arrayBody_of_error hitems)]
  | .object members, hordered, hreal, 0, rest, _ => by
    rw [ofChars_object]
    rfl
  | .object members, hordered, hreal, depth + 1, rest, _ => by
    have hmembers := foldMembers_membersText members hordered.2 hreal depth true _
      (length_lt_members members rest) [] hordered.1 rest
    rw [List.nil_append] at hmembers
    rw [ofChars_object, value_succ, valueWith_object]
    by_cases hdepth : membersDepth members ≤ depth
    · rw [if_pos hdepth] at hmembers
      rw [if_pos (by rw [Value.depth]; exact Nat.succ_le_succ hdepth),
        bind_of_ok (objectBody_of_ok hmembers)]
      rfl
    · rw [if_neg hdepth] at hmembers
      rw [if_neg (by rw [Value.depth]; exact fun hle => hdepth (Nat.le_of_succ_le_succ hle)),
        bind_of_error (objectBody_of_error hmembers)]

/-- Items are read back if none of them nests too deep. -/
theorem foldItems_itemsText : ∀ (items : List Value), ItemsOrdered items → ItemsRealFree items →
    ∀ (depth : Nat) (first : Bool) (fuel : Bytes), items.length < fuel.length →
    ∀ (acc : List Value) (rest : Bytes),
      foldItems (pushItem depth) fuel first acc
        (ofChars (itemsText first items) ++ byte ']' :: rest) =
      if itemsDepth items ≤ depth then .ok (items.reverse ++ acc, byte ']' :: rest)
      else .error .nestingLimit
  | [], _, _, depth, first, _ :: fuel, _, acc, rest => by
    cases first <;> rfl
  | v :: items, hordered, hreal, depth, first, _ :: fuel, hfuel, acc, rest => by
    have hnext := nextItem_itemsText hreal.1 items first (byte ']' :: rest)
    have hvalue := value_render v hordered.1 hreal.1 depth (closed_items items rest)
    have hitems := foldItems_itemsText items hordered.2 hreal.2 depth false fuel
      (Nat.lt_of_succ_lt_succ hfuel) (v :: acc) rest
    rw [itemsText, if_neg (by decide)] at hitems
    rw [foldItems, bind_of_ok hnext, if_pos rfl, itemsDepth]
    by_cases hdepth : v.depth ≤ depth
    · rw [if_pos hdepth] at hvalue
      rw [bind_of_ok (pushItem_of_ok hvalue acc), hitems, List.reverse_cons, List.append_assoc]
      simp only [Nat.max_le, hdepth, true_and]
      rfl
    · rw [if_neg hdepth] at hvalue
      rw [bind_of_error (pushItem_of_error hvalue acc),
        if_neg fun hle => hdepth (Nat.max_le.1 hle).1]

/-- Members are read back if none of their values nests too deep. They come after those that have
been read before. -/
theorem foldMembers_membersText : ∀ (members : List (String × Value)), MembersOrdered members →
    MembersRealFree members → ∀ (depth : Nat) (first : Bool) (fuel : Bytes),
    members.length < fuel.length → ∀ (acc : List (String × Value)),
    Table.Increasing (acc ++ members) → ∀ (rest : Bytes),
      foldMembers (putMember depth) fuel first acc
        (ofChars (membersText first members) ++ byte '\x7d' :: rest) =
      if membersDepth members ≤ depth then .ok (acc ++ members, byte '\x7d' :: rest)
      else .error .nestingLimit
  | [], _, _, depth, first, _ :: fuel, _, acc, _, rest => by
    rw [List.append_nil]
    cases first <;> rfl
  | (key, v) :: members, hordered, hreal, depth, first, _ :: fuel, hfuel, acc, hacc, rest => by
    have hnext := nextKey_membersText key v members first (byte '\x7d' :: rest)
    have hvalue := value_render v hordered.1 hreal.1 depth (closed_members members rest)
    have hlast : Table.insertEntry key v acc = acc ++ [(key, v)] :=
      Table.insertEntry_of_forall_lt fun e he =>
        (List.pairwise_append.1 hacc).2.2 e he (key, v) List.mem_cons_self
    rw [← List.singleton_append, ← List.append_assoc] at hacc
    have hmembers := foldMembers_membersText members hordered.2 hreal.2 depth false fuel
      (Nat.lt_of_succ_lt_succ hfuel) (acc ++ [(key, v)]) hacc rest
    rw [membersText, if_neg (by decide)] at hmembers
    rw [foldMembers, bind_of_ok hnext, membersDepth]
    dsimp only
    by_cases hdepth : v.depth ≤ depth
    · rw [if_pos hdepth] at hvalue
      rw [bind_of_ok (putMember_of_ok hvalue acc key), hlast, hmembers, List.append_assoc]
      simp only [Nat.max_le, hdepth, true_and]
      rfl
    · rw [if_neg hdepth] at hvalue
      rw [bind_of_error (putMember_of_error hvalue acc key),
        if_neg fun hle => hdepth (Nat.max_le.1 hle).1]

end

/-- A value is read back from its text if it nests fewer than 128 arrays and objects. -/
theorem parse_toBytes {v : Value} (hordered : v.Ordered) (hreal : v.RealFree) :
    parse v.toBytes = if v.depth < 128 then .ok v else .error .nestingLimit := by
  have hvalue := @value_render v hordered hreal nestingLimit [] nofun
  have hlimit : v.depth ≤ nestingLimit ↔ v.depth < 128 := Nat.lt_succ_iff.symm
  rw [List.append_nil] at hvalue
  simp only [hlimit] at hvalue
  rw [toBytes, toText, Bytes.ofText_ofList, parse, document, hvalue]
  split <;> rfl

end Value
end Turnstile.Json
