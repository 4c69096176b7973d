import Mathlib.Tactic.Choose
import Turnstile.Proofs.Key.Sums

/-!
# Arguments by position

The argument at a position can be reached by the position itself, as in `#p1`, or as an item of the
list of all arguments, as in `#args[1]`. Both lead to the same value, and so do the same steps
behind them. But the list is made first, of the values of all arguments, and there is none if a
single argument is opaque or could not be turned into JSON.
-/

namespace Turnstile.Key

open Grammar
open Json (Value)
open Text (bind_of_error bind_of_ok bind_pure_eq_ok_iff except_bind_eq_ok get_bind)

/-- The key that the text of an expression gives for a call. -/
def Scope.keyBy (scope : Scope) (source : String) : Except KeyError String := do
  (← Expression.parse source).evaluate scope

/-! ## Steps -/

section Steps

variable {trail trail' : String} {v part : Value} {path : List Accessor}

/-- The part that an accessor leads to does not depend on the way there. -/
theorem Accessor.follow_of_ok {accessor : Accessor} (h : accessor.follow trail v = .ok part) :
    accessor.follow trail' v = .ok part := by
  cases accessor with
  | field name =>
    rw [follow] at h ⊢
    cases hmember : v.member? name with
    | none => simp [hmember] at h
    | some w => simpa [hmember] using h
  | index n =>
    cases v with
    | array items =>
      rw [follow] at h ⊢
      cases hitem : items[n]? with
      | none => simp [hitem] at h
      | some w => simpa [hitem] using h
    | _ => simp [follow] at h

/-- The part at the end of a path does not depend on the way there. -/
theorem followPath_of_ok (h : followPath trail v path = .ok part) :
    followPath trail' v path = .ok part := by
  induction path generalizing trail trail' v with
  | nil => exact h
  | cons accessor path ih =>
    obtain ⟨next, hnext, hrest⟩ := except_bind_eq_ok h
    rw [followPath, Accessor.follow_of_ok hnext]
    exact ih hrest

/-- Behind the number of an item, a path goes on from that item. -/
theorem followPath_index_eq_ok_iff {items : List Value} {i : Nat} :
    followPath trail (.array items) (.index i :: path) = .ok part ↔
      ∃ item, items[i]? = some item ∧ followPath trail' item path = .ok part := by
  constructor
  · intro h
    obtain ⟨item, hitem, hrest⟩ := except_bind_eq_ok h
    refine ⟨item, ?_, followPath_of_ok hrest⟩
    rw [Accessor.follow] at hitem
    cases hfound : items[i]? with
    | none => simp [hfound] at hitem
    | some w => simpa [hfound] using hitem
  · rintro ⟨item, hitem, hrest⟩
    rw [followPath, Accessor.follow, hitem]
    exact followPath_of_ok hrest

end Steps

/-! ## Texts of variables -/

section Texts

variable {scope : Scope} {name digits steps : List Char} {path : List Accessor} {i : Nat}
  {key : String}

/-- A variable is an expression by itself. -/
theorem Expression.parse_variable (hname : Name name) (hpath : Path steps path) :
    parse (String.ofList ('#' :: (name ++ steps))) =
      .ok ⟨String.ofList ('#' :: (name ++ steps)), [.variable (String.ofList name) path]⟩ := by
  refine parse_eq_ok_iff.2 ⟨rfl, ?_⟩
  have hblanks : Blanks [] := by simp [Blanks]
  have hphrase := Phrase.intro hblanks (.variable hname hpath) .nil hblanks
  simpa using hphrase

/-- The key of a variable is the part of its value at the end of the path. -/
theorem keyBy_variable (hname : Name name) (hpath : Path steps path) :
    scope.keyBy (String.ofList ('#' :: (name ++ steps))) = .ok key ↔
      ∃ root part, scope.root (String.ofList name) = .ok root ∧
        followPath ("#" ++ String.ofList name) root path = .ok part ∧
          key = String.ofList (segment part) := by
  have hkey : scope.keyBy (String.ofList ('#' :: (name ++ steps))) = do
      let root ← scope.root (String.ofList name)
      let part ← followPath ("#" ++ String.ofList name) root path
      return String.ofList (segment part) := by
    have hnone : evaluateTerms scope [] = pure [] := rfl
    rw [Scope.keyBy, Expression.parse_variable hname hpath]
    change Expression.evaluate _ scope = _
    rw [Expression.evaluate, evaluateTerms, hnone, Term.value]
    simp only [bind_assoc, pure_bind, List.append_nil]
  rw [hkey]
  constructor
  · intro h
    obtain ⟨root, hroot, h⟩ := except_bind_eq_ok h
    obtain ⟨part, hpart, h⟩ := except_bind_eq_ok h
    exact ⟨root, part, hroot, hpart, (Except.ok.inj h).symm⟩
  · rintro ⟨root, part, hroot, hpart, rfl⟩
    rw [hroot]
    change (followPath _ root path >>= _) = _
    rw [hpart]
    rfl

/-- The decimal digits of a number. -/
theorem decimal_toString (n : Nat) : Decimal (toString n).toList n := by
  have hdigits : (toString n).toList = Nat.toDigits 10 n := by
    rw [Nat.toString_eq_ofList_toDigits, String.toList_ofList]
  have hvalue (cs : List Char) : Expression.decimal cs = Nat.ofDigitChars 10 cs 0 := by
    simp only [Expression.decimal, Nat.ofDigitChars, Nat.mul_comm]
    rfl
  rw [hdigits, decimal_iff, hvalue]
  exact ⟨Nat.toDigits_ne_nil, fun c hc => Nat.isDigit_of_mem_toDigits (by decide) (by decide) hc,
    Nat.ofDigitChars_ten_toDigits⟩

/-- Whether a text is a name can be seen from its characters. -/
theorem name_iff : Name name ↔ name ≠ [] ∧ name.all Expression.isIdentifierChar = true := by
  simp only [Name, List.all_eq_true, isIdentifierChar_iff]

/-- A position is a name. -/
theorem name_position (h : Decimal digits i) : Name ('p' :: digits) := by
  have hdigits : ∀ c ∈ digits, Expression.isIdentifierChar c = true := fun c hc => by
    simp [Expression.isIdentifierChar, Char.isAlphanum, (decimal_iff.1 h).2.1 c hc]
  refine name_iff.2 ⟨List.cons_ne_nil _ _, ?_⟩
  rw [List.all_cons, List.all_eq_true.2 hdigits]
  rfl

end Texts

/-! ## Numbers beyond all positions -/

namespace Expression

variable {name digits : List Char} {i : Nat}

/-- The number of an item that does not fit into 64 bits is refused. -/
theorem bracketed_of_size_le (h : Decimal digits i) (hi : UInt64.size ≤ i) (rest : List Char) :
    bracketed (digits ++ ']' :: rest) = .error ⟨.indexRange, ']' :: rest⟩ := by
  have hcloses : Closes (']' :: rest) := by
    intro c hc
    obtain rfl : ']' = c := by simpa using hc
    exact .inr (.inr rfl)
  have hrun := run_append h hcloses
  have hvalue : decimal digits = i := (decimal_iff.1 h).2.2
  obtain ⟨c, more, rfl, hc⟩ := head_of_decimal h
  have hblank : (c :: more ++ ']' :: rest).dropWhile Text.isBlank = c :: more ++ ']' :: rest := by
    simp [isBlank_of_isDigit hc]
  have hcontent : content (c :: more ++ ']' :: rest) = .error ⟨.indexRange, ']' :: rest⟩ := by
    rw [content, get_bind]
    rw [List.cons_append] at hrun ⊢
    dsimp only
    rw [if_neg (by simp [isQuote_of_isDigit hc]), if_pos hc, bind_of_ok hrun, hvalue,
      if_neg (Nat.not_lt.2 hi)]
    rfl
  rw [bracketed_eq, skipBlanks_bind, hblank, bind_of_error hcontent]

/-- An expression that begins with an item whose number does not fit into 64 bits is refused. -/
theorem parse_of_size_le (hname : Name name) (h : Decimal digits i) (hi : UInt64.size ≤ i)
    (rest : List Char) :
    ∃ fault, parse (String.ofList ('#' :: (name ++ '[' :: (digits ++ ']' :: rest)))) =
      .error fault := by
  have hhead : ∀ c ∈ ('[' :: (digits ++ ']' :: rest)).head?, isIdentifierChar c = false := by
    intro c hc
    obtain rfl : '[' = c := by simpa using hc
    decide
  have hpath : accessors ('[' :: (digits ++ ']' :: rest)) ('[' :: (digits ++ ']' :: rest)) =
      .error ⟨.indexRange, ']' :: rest⟩ := by
    rw [accessors_bracket, bind_of_error (bracketed_of_size_le h hi rest)]
  have hterm : term ('#' :: (name ++ '[' :: (digits ++ ']' :: rest))) =
      .error ⟨.indexRange, ']' :: rest⟩ := by
    rw [term_variable, bind_of_ok (identifier_append hname hhead), get_bind, bind_of_error hpath]
  have hterms : allTerms ('#' :: (name ++ '[' :: (digits ++ ']' :: rest))) =
      .error ⟨.indexRange, ']' :: rest⟩ := by
    rw [allTerms, skipBlanks_bind, List.dropWhile_cons_of_neg (by decide), get_bind,
      if_neg (by simp)]
    exact bind_of_error hterm
  rw [parse, String.toList_ofList, hterms]
  exact ⟨_, rfl⟩

end Expression

/-! ## What positions stand for -/

section Roots

variable {scope : Scope} {digits steps : List Char} {path : List Accessor} {i : Nat} {root : Value}
  {key : String}

/-- The name of a position is read as its number, if that fits into 64 bits. -/
theorem position?_of_decimal (h : Decimal digits i) :
    position? (String.ofList ('p' :: digits)) = if i < UInt64.size then some i else none := by
  obtain ⟨hne, hdigits, rfl⟩ := decimal_iff.1 h
  have hall : digits.all Char.isDigit = true := List.all_eq_true.2 hdigits
  rw [position?, String.toList_ofList]
  simp [hne, hall]

/-- Successful steps over a list yield a list. -/
theorem mapM_eq_ok_iff {ε α β : Type} {f : α → Except ε β} {xs : List α} {ys : List β} :
    xs.mapM f = .ok ys ↔ xs.map f = ys.map .ok := by
  induction xs generalizing ys with
  | nil => simp [pure, Except.pure, eq_comm]
  | cons x xs ih =>
    rw [List.mapM_cons, List.map_cons]
    constructor
    · intro h
      obtain ⟨y, hy, h⟩ := except_bind_eq_ok h
      obtain ⟨rest, hrest, rfl⟩ := bind_pure_eq_ok_iff.1 h
      rw [hy, ih.1 hrest, List.map_cons]
    · intro h
      cases ys with
      | nil => cases h
      | cons y ys =>
        obtain ⟨hy, hrest⟩ := List.cons.inj h
        rw [hy]
        exact bind_pure_eq_ok_iff.2 ⟨ys, ih.2 hrest, rfl⟩

/-- The list of all arguments is that of their values, each of which is needed. -/
theorem root_args_eq_ok_iff (h : ∀ a ∈ scope.arguments, a.name ≠ "args") :
    scope.root "args" = .ok root ↔
      ∃ items, scope.arguments.map Argument.value = items.map .ok ∧ root = .array items := by
  have hargument : scope.arguments.find? (·.name = "args") = none := by simpa using h
  have hposition : position? "args" = none := by decide
  rw [Scope.root, hargument, hposition]
  simp only [← mapM_eq_ok_iff]
  exact bind_pure_eq_ok_iff

/-- A position stands for the value of the argument there. -/
theorem root_position_eq_ok_iff (hdigits : Decimal digits i)
    (h : ∀ a ∈ scope.arguments, a.name ≠ String.ofList ('p' :: digits)) :
    scope.root (String.ofList ('p' :: digits)) = .ok root ↔
      i < UInt64.size ∧ (scope.arguments.map Argument.value)[i]? = some (.ok root) := by
  have hargument : scope.arguments.find? (·.name = String.ofList ('p' :: digits)) = none := by
    simpa using h
  rw [Scope.root, hargument, position?_of_decimal hdigits, List.getElem?_map]
  by_cases hi : i < UInt64.size
  · rw [if_pos hi]
    cases hfound : scope.arguments[i]? with
    | none => simp [hfound]
    | some a => simp [hfound, hi]
  · have hother (name : String) (hname : name.toList.head? ≠ some 'p') :
        String.ofList ('p' :: digits) ≠ name := by
      rintro rfl
      simp at hname
    have hmethod := hother "method" (by decide)
    have hargs := hother "args" (by decide)
    rw [if_neg hi]
    simp only [if_neg hmethod, if_neg hargs]
    simp [hi]

/-- A list has the values of all arguments if each of them has a value. -/
theorem exists_values_iff {args : List Argument} :
    (∃ items : List Value, args.map Argument.value = items.map .ok) ↔
      ∀ a ∈ args, ∃ v, a.value = .ok v := by
  constructor
  · rintro ⟨items, hitems⟩ a ha
    have hmem : a.value ∈ items.map .ok := hitems ▸ List.mem_map_of_mem ha
    obtain ⟨v, -, hv⟩ := List.mem_map.1 hmem
    exact ⟨v, hv.symm⟩
  · intro h
    choose! valueOf hvalue using h
    refine ⟨args.map valueOf, ?_⟩
    rw [List.map_map]
    exact List.map_congr_left hvalue

/-- The item of the list and the argument at the position give one key, if the list has a value. -/
theorem keyBy_item_iff (hdigits : Decimal digits i) (hpath : Path steps path)
    (hargs : ∀ a ∈ scope.arguments, a.name ≠ "args")
    (hposition : ∀ a ∈ scope.arguments, a.name ≠ String.ofList ('p' :: digits)) :
    scope.keyBy (String.ofList ('#' :: ("args".toList ++ '[' :: (digits ++ ']' :: steps)))) =
        .ok key ↔
      scope.keyBy (String.ofList ('#' :: ('p' :: digits ++ steps))) = .ok key ∧
        ∀ a ∈ scope.arguments, ∃ v, a.value = .ok v := by
  have hname : Name "args".toList := name_iff.2 (by decide)
  rw [keyBy_variable (name_position hdigits) hpath, ← exists_values_iff]
  by_cases hi : i < UInt64.size
  · have hblanks : Blanks [] := by simp [Blanks]
    have hitem : Path ('[' :: (digits ++ ']' :: steps)) (.index i :: path) := by
      simpa using Path.cons (.bracket hblanks (.index hdigits hi) hblanks) hpath
    rw [keyBy_variable hname hitem, String.ofList_toList]
    constructor
    · rintro ⟨root, part, hroot, hpart, hkey⟩
      obtain ⟨items, hitems, rfl⟩ := (root_args_eq_ok_iff hargs).1 hroot
      obtain ⟨item, hat, hrest⟩ := followPath_index_eq_ok_iff.1 hpart
      refine ⟨⟨item, part, (root_position_eq_ok_iff hdigits hposition).2 ⟨hi, ?_⟩, hrest, hkey⟩,
        items, hitems⟩
      rw [hitems, List.getElem?_map, hat]
      rfl
    · rintro ⟨⟨item, part, hroot, hrest, hkey⟩, items, hitems⟩
      obtain ⟨-, hat⟩ := (root_position_eq_ok_iff hdigits hposition).1 hroot
      rw [hitems, List.getElem?_map] at hat
      obtain ⟨found, hfound, hvalue⟩ := Option.map_eq_some_iff.1 hat
      cases hvalue
      exact ⟨.array items, part, (root_args_eq_ok_iff hargs).2 ⟨items, hitems, rfl⟩,
        followPath_index_eq_ok_iff.2 ⟨item, hfound, hrest⟩, hkey⟩
  · obtain ⟨fault, hfault⟩ := Expression.parse_of_size_le hname hdigits (Nat.not_lt.1 hi) steps
    rw [Scope.keyBy, hfault]
    constructor
    · intro h
      cases h
    · rintro ⟨⟨root, part, hroot, -⟩, -⟩
      exact absurd ((root_position_eq_ok_iff hdigits hposition).1 hroot).1 hi

end Roots

/-- With the same steps behind them, an item of the list of all arguments yields a key exactly if
the argument of that position does and every argument has a value, and then the same key. -/
theorem keyBy_args_iff_position {scope : Scope} {i : Nat} {steps : String} {path : List Accessor}
    (hpath : Path steps.toList path)
    (hnames : ∀ a ∈ scope.arguments, a.name ≠ "args" ∧ a.name ≠ "p" ++ toString i) (key : String) :
    scope.keyBy ("#args[" ++ toString i ++ "]" ++ steps) = .ok key ↔
      scope.keyBy ("#p" ++ toString i ++ steps) = .ok key ∧
        ∀ a ∈ scope.arguments, ∃ v, a.value = .ok v := by
  have hname : String.ofList ('p' :: (toString i).toList) = "p" ++ toString i := by
    apply String.toList_injective
    simp
  have hitem : "#args[" ++ toString i ++ "]" ++ steps = String.ofList
      ('#' :: ("args".toList ++ '[' :: ((toString i).toList ++ ']' :: steps.toList))) := by
    apply String.toList_injective
    simp
  have hposition : "#p" ++ toString i ++ steps =
      String.ofList ('#' :: ('p' :: (toString i).toList ++ steps.toList)) := by
    apply String.toList_injective
    simp
  rw [hitem, hposition]
  refine keyBy_item_iff (decimal_toString i) hpath (fun a ha => (hnames a ha).1) fun a ha => ?_
  rw [hname]
  exact (hnames a ha).2

/-- The list of all arguments has no value if one of them is opaque, wherever it stands, but the
other arguments can be reached by their positions. -/
theorem args_without_value :
    (∀ a ∈ (stockCall .resource).arguments, a.name ≠ "args" ∧ a.name ≠ "p0") ∧
      (stockCall .resource).keyBy "#p0" = .ok "bolt" ∧
      (stockCall .resource).keyBy "#args[0]" = .error (.opaqueArgument "amount") := by
  decide +kernel

/-- A call whose last argument is an object. -/
theorem keyBy_args_iff_position_of_member :
    (stockCall (.value (.object [("unit", .string "kg")]))).keyBy "#args[1].unit" = .ok "kg" := by
  have hpath : Path ".unit".toList [.field "unit"] :=
    .cons (.field (name_iff.2 (by decide : "unit".toList ≠ [] ∧ _))) .nil
  have hnames : ∀ a ∈ (stockCall (.value (.object [("unit", .string "kg")]))).arguments,
      a.name ≠ "args" ∧ a.name ≠ "p" ++ toString 1 := by decide
  refine (keyBy_args_iff_position hpath hnames "kg").2 ⟨?_, ?_⟩
  · decide +kernel
  · exact List.forall_mem_cons.2 ⟨⟨_, rfl⟩, List.forall_mem_singleton.2 ⟨_, rfl⟩⟩

end Turnstile.Key
