import Turnstile.Proofs.Json.Tables

/-!
# What readers yield

A reader yields only what satisfies a condition, if that is so whatever it reads. The conditions
follow the readers: a value is ordered and nests no deeper than its reader goes, and a record is
made of a draft that satisfies what all of its fields keep.
-/

namespace Turnstile.Json

open Text (bind_eq_ok)

namespace Reader

variable {α β σ : Type} {P : α → Prop}

/-- Whatever is read, it satisfies the condition. -/
def Yields (P : α → Prop) (reader : Reader α) : Prop :=
  ∀ s a rest, reader s = .ok (a, rest) → P a

namespace Yields

theorem mono {Q : α → Prop} {reader : Reader α} (h : Yields P reader) (hle : ∀ a, P a → Q a) :
    Yields Q reader :=
  fun s a rest hread => hle a (h s a rest hread)

theorem pure {a : α} (h : P a) : Yields P (pure a) := by
  intro s b rest hread
  cases hread
  exact h

theorem throw (e : ReadError) : Yields P (throw e : Reader α) := by
  intro s a rest hread
  cases hread

/-- What is made without reading is as good as it is made. -/
theorem lift {result : Except ReadError α} (h : ∀ a, result = .ok a → P a) :
    Yields P (result : Reader α) := by
  intro s a rest hread
  cases result with
  | error e => cases hread
  | ok made =>
    cases hread
    exact h a rfl

theorem bind {Q : β → Prop} {first : Reader β} {next : β → Reader α} (h : Yields Q first)
    (hnext : ∀ b, Q b → Yields P (next b)) : Yields P (first >>= next) := by
  intro s a rest hread
  obtain ⟨b, mid, hfirst, hread⟩ := bind_eq_ok hread
  exact hnext b (h s b mid hfirst) mid a rest hread

/-- What comes first may yield anything. -/
theorem after {first : Reader β} {next : β → Reader α} (h : ∀ b, Yields P (next b)) :
    Yields P (first >>= next) :=
  bind (Q := fun _ => True) (fun _ _ _ _ => trivial) fun b _ => h b

theorem map {f : β → α} {reader : Reader β} (h : ∀ b, P (f b)) : Yields P (f <$> reader) := by
  have hbind : f <$> reader = reader >>= fun b => Pure.pure (f b) := rfl
  rw [hbind]
  exact after fun b => pure (h b)

theorem ite {c : Prop} [Decidable c] {first second : Reader α} (hfirst : Yields P first)
    (hsecond : Yields P second) : Yields P (if c then first else second) := by
  split
  · exact hfirst
  · exact hsecond

/-- What looks at the next byte must do well with each, and fail where there is none. -/
theorem peek {fault : ReadError} {next : UInt8 → Reader α} (h : ∀ b, Yields P (next b)) :
    Yields P (do
      match ← Reader.peek with
      | none => MonadExcept.throw fault
      | some b => next b) := by
  refine after fun b? => ?_
  cases b? with
  | none => exact throw fault
  | some b => exact h b

/-- A value of the wrong type is never read. -/
theorem wrongType (expected : Expected) : Yields P (wrongType expected : Reader α) := by
  have hrefuse (found : Found) : Yields P (MonadExcept.throw (.wrongType found expected)) :=
    throw _
  refine peek fun b => ?_
  -- What is found is read first, so that its own faults come before the wrong type.
  refine .ite ?null (.ite ?yes (.ite ?no (.ite ?minus (.ite ?digit (.ite ?quoted (.ite ?opening
    (.ite ?brace (throw _))))))))
  case digit => exact .after fun _ => hrefuse _
  case opening => exact hrefuse _
  case brace => exact hrefuse _
  all_goals exact .after fun _ => .after fun _ => hrefuse _

theorem opened {opening : Char} {expected : Expected} {body : Reader α} (h : Yields P body) :
    Yields P (opened opening expected body) :=
  peek fun _ => .ite (.after fun _ => h) (wrongType expected)

/-- The items of an array keep what held before them. -/
theorem arrayBody {P : σ → Prop} {step : σ → Reader σ} {start : σ} (hstart : P start)
    (hstep : ∀ acc, P acc → Yields P (step acc)) : Yields P (arrayBody step start) := by
  -- The induction is on the text that is left at the start, which bounds the number of items.
  have hfold (fuel : Bytes) : ∀ (first : Bool) (acc : σ), P acc →
      Yields P (foldItems step fuel first acc) := by
    induction fuel with
    | nil => exact fun _ _ _ => throw _
    | cons _ fuel ih =>
      intro first acc hacc
      exact .after fun _ => .ite ((hstep acc hacc).bind fun next hnext => ih false next hnext)
        (pure hacc)
  exact .after fun fuel => (hfold fuel true start hstart).bind fun _ hresult =>
    .after fun _ => pure hresult

/-- The members of an object keep what held before them. -/
theorem objectBody {P : σ → Prop} {step : σ → String → Reader σ} {start : σ} (hstart : P start)
    (hstep : ∀ acc key, P acc → Yields P (step acc key)) : Yields P (objectBody step start) := by
  refine .after fun fuel => .bind (Q := P) ?_ fun _ hresult => .after fun _ => pure hresult
  intro s result rest hfold
  exact foldMembers_invariant (fun acc key s next rest hacc => hstep acc key hacc s next rest)
    hstart hfold

/-- What is read of a whole text satisfies the condition. -/
theorem document {reader : Reader α} {text : Bytes} {a : α} (h : Yields P reader)
    (hread : document reader text = .ok a) : P a := by
  obtain ⟨rest, hread⟩ := document_eq_ok hread
  exact h text a rest hread

end Yields

/-! ## Values -/

/-- A value that is no array and no object is ordered and does not nest. -/
theorem yields_valueWith {P : Value → Prop} {array object : Reader Value}
    (hscalar : ∀ v : Value, v.Ordered → v.depth = 0 → P v) (harray : Yields P array)
    (hobject : Yields P object) : Yields P (valueWith array object) := by
  refine .peek fun _ => ?_
  refine .ite ?null (.ite ?yes (.ite ?no (.ite ?minus (.ite ?digit (.ite ?quoted (.ite ?opening
    (.ite ?brace (.throw _))))))))
  case null => exact .after fun _ => .after fun _ => .pure (hscalar .null trivial rfl)
  case yes => exact .after fun _ => .after fun _ => .pure (hscalar (.bool true) trivial rfl)
  case no => exact .after fun _ => .after fun _ => .pure (hscalar (.bool false) trivial rfl)
  case minus => exact .after fun _ => .map fun n => hscalar (.number n) trivial rfl
  case digit => exact .map fun n => hscalar (.number n) trivial rfl
  case quoted => exact .after fun _ => .map fun s => hscalar (.string s) trivial rfl
  case opening => exact .after fun _ => harray
  case brace => exact .after fun _ => hobject

/-- Values are put in the order of their keys, and none is put in that the condition rules out. -/
theorem Yields.putMember {depth : Nat} {P : Value → Prop} (hvalue : Yields P (value depth))
    {members : List (String × Value)} (hmembers : Table.Increasing members ∧ ∀ e ∈ members, P e.2)
    (key : String) :
    Yields (fun members => Table.Increasing members ∧ ∀ e ∈ members, P e.2)
      (putMember depth members key) := by
  refine .after fun _ => hvalue.bind fun v hv => .pure ?_
  refine ⟨Table.increasing_insertEntry hmembers.1 key v, fun e he => ?_⟩
  rcases Table.mem_insertEntry he with rfl | he
  · exact hv
  · exact hmembers.2 e he

/-- A value that is read is ordered and nests no deeper than its reader goes. -/
theorem yields_value (depth : Nat) :
    Yields (fun v => v.Ordered ∧ v.depth ≤ depth) (value depth) := by
  induction depth with
  | zero =>
    exact yields_valueWith (fun v hordered hdepth => ⟨hordered, Nat.le_of_eq hdepth⟩) (.throw _)
      (.throw _)
  | succ depth ih =>
    rw [value_succ]
    refine yields_valueWith
      (fun v hordered hdepth => ⟨hordered, Nat.le_trans (Nat.le_of_eq hdepth) (Nat.zero_le _)⟩)
      ?array ?object
    case array =>
      have hpush (items : List Value) (hitems : ∀ v ∈ items, v.Ordered ∧ v.depth ≤ depth) :
          Yields (fun items => ∀ v ∈ items, v.Ordered ∧ v.depth ≤ depth) (pushItem depth items) :=
        ih.bind fun v hv => .pure (List.forall_mem_cons.2 ⟨hv, hitems⟩)
      refine (Yields.arrayBody nofun hpush).bind fun items hitems => .pure ?_
      have hall : ∀ v ∈ items.reverse, v.Ordered ∧ v.depth ≤ depth := fun v hv =>
        hitems v (List.mem_reverse.1 hv)
      exact ⟨Value.itemsOrdered_iff.2 fun v hv => (hall v hv).1,
        Nat.succ_le_succ (Value.itemsDepth_le_iff.2 fun v hv => (hall v hv).2)⟩
    case object =>
      refine (Yields.objectBody ⟨.nil, nofun⟩ fun members key hmembers =>
        ih.putMember hmembers key).bind fun members hmembers => .pure ?_
      exact ⟨⟨hmembers.1, Value.membersOrdered_iff.2 fun e he => (hmembers.2 e he).1⟩,
        Nat.succ_le_succ (Value.membersDepth_le_iff.2 fun e he => (hmembers.2 e he).2)⟩

/-- The values of a table are ordered and nest no deeper than a bound. -/
def Bounded (depth : Nat) (t : Table Value) : Prop :=
  ∀ e ∈ t.entries, e.2.Ordered ∧ e.2.depth ≤ depth

/-- The values of a table that is read are ordered and nest no deeper than its reader allows. -/
theorem yields_table (depth : Nat) : Yields (Bounded depth) (table value (depth + 1)) := by
  refine .opened (.objectBody nofun fun t key ht => ?_)
  refine .after fun _ => (yields_value depth).bind fun v hv => .pure fun e he => ?_
  rcases Table.mem_insertEntry he with rfl | he
  · exact hv
  · exact ht e he

end Reader

namespace RecordLayout

open Reader

variable {δ α : Type} {layout : RecordLayout δ α} {P : δ → Prop} {depth : Nat}

/-- What fields keep is kept by a member, which is one of them or passed over. -/
theorem yields_member {draft : δ} (hdraft : P draft)
    (hfield : ∀ field ∈ layout.fields, Yields P (field.read depth draft)) (key : String) :
    Yields P (layout.member depth draft key) := by
  intro s next rest hmember
  obtain ⟨field, hmem, -, mid, hread⟩ | rfl := layout.member_cases hmember
  · exact hfield field hmem mid next rest hread
  · exact hdraft

/-- What fields keep is kept by all of them in a row. -/
theorem yields_positional {fields : List (Field δ)}
    (hfield : ∀ field ∈ fields, ∀ draft, P draft → Yields P (field.read depth draft)) (index : Nat)
    (first : Bool) {draft : δ} (hdraft : P draft) :
    Yields P (layout.positional depth fields index first draft) := by
  induction fields generalizing index first draft with
  | nil => exact .pure hdraft
  | cons field fields ih =>
    have hmore := ih fun field hmem => hfield field (List.mem_cons_of_mem _ hmem)
    refine .after fun _ => .ite ?_ (.ite (hmore _ _ hdraft) (.throw _))
    exact (hfield field List.mem_cons_self draft hdraft).bind fun next hnext => hmore _ _ hnext

/-- A record that is read, as an object or as an array, is made of a draft that satisfies what the
empty one does and all fields keep. -/
theorem yields_read (hblank : P layout.blank)
    (hfield : ∀ field ∈ layout.fields, ∀ draft, P draft → Yields P (field.read depth draft)) :
    Yields (fun a => ∃ draft, P draft ∧ layout.finish draft = .ok a) (layout.read (depth + 1)) := by
  have hfinish {draft : δ} (hdraft : P draft) :
      Yields (fun a => ∃ draft, P draft ∧ layout.finish draft = .ok a)
        (layout.finish draft : Except ReadError α) :=
    .lift fun a hmade => ⟨draft, hdraft, hmade⟩
  refine .peek fun _ => .ite ?array (.ite ?object (.wrongType _))
  case array =>
    refine .after fun _ => (yields_positional hfield 0 true hblank).bind fun draft hdraft => ?_
    exact (hfinish hdraft).bind fun record hrecord => .after fun _ => .pure hrecord
  case object =>
    have hmember (draft : δ) (key : String) (hdraft : P draft) :=
      yields_member hdraft (fun field hmem => hfield field hmem draft hdraft) key
    exact .after fun _ => (Yields.objectBody hblank hmember).bind fun draft hdraft =>
      hfinish hdraft

end RecordLayout
end Turnstile.Json
