import Turnstile.Table
import Turnstile.Number.Binary64

/-!
# JSON values

A number is a whole number of at most 64 bits, signed or unsigned, or a double.
The members of an object come in increasing order of their keys, which
`Value.Ordered` states at every depth.
-/

namespace Turnstile.Json

/-- A whole number that fits 64 bits with or without a sign. -/
structure Whole where
  val : Int
  lower : -0x8000000000000000 ≤ val
  upper : val < 0x10000000000000000
  deriving DecidableEq

/-- The whole number of an integer, if it fits. -/
def Whole.ofInt? (n : Int) : Option Whole :=
  if h : -0x8000000000000000 ≤ n ∧ n < 0x10000000000000000 then some ⟨n, h.1, h.2⟩ else none

/-- Zero, which is what an unset number counts as. -/
instance : Inhabited Whole := ⟨⟨0, by decide, by decide⟩⟩

/-- A number as JSON text can hold it. -/
inductive Number
  | whole (n : Whole)
  | real (x : Binary64)
  deriving DecidableEq

/-- A JSON value. -/
inductive Value
  | null
  | bool (b : Bool)
  | number (n : Number)
  | string (s : String)
  | array (items : List Value)
  | object (members : List (String × Value))

namespace Value

instance : Inhabited Value := ⟨.null⟩

/-- The number of an integer: exact if it fits 64 bits, else null. -/
def ofInt (n : Int) : Value :=
  match Whole.ofInt? n with
  | some w => .number (.whole w)
  | none => .null

/-- The number of a double; JSON has no text for infinities and NaN, which become null. -/
def ofReal (x : Binary64) : Value := if x.isFinite then .number (.real x) else .null

/-- The object of a table. -/
def ofTable (t : Table Value) : Value := .object t.entries

/-- The text that a string value holds. -/
def text? : Value → Option String
  | .string s => some s
  | _ => none

/-- A value that holds a text is that text. -/
theorem text?_eq_some_iff {v : Value} {s : String} : v.text? = some s ↔ v = .string s := by
  cases v <;> simp [text?]

/-- The items of an array. -/
def items? : Value → Option (List Value)
  | .array items => some items
  | _ => none

/-- The value of an object's member. -/
def member? (key : String) : Value → Option Value
  | .object members => Table.findEntry key members
  | _ => none

mutual
/-- Every object inside has strictly increasing keys. -/
def Ordered : Value → Prop
  | .array items => ItemsOrdered items
  | .object members => Table.Increasing members ∧ MembersOrdered members
  | _ => True

/-- Every item is ordered. -/
def ItemsOrdered : List Value → Prop
  | [] => True
  | v :: rest => v.Ordered ∧ ItemsOrdered rest

/-- Every member's value is ordered. -/
def MembersOrdered : List (String × Value) → Prop
  | [] => True
  | (_, v) :: rest => v.Ordered ∧ MembersOrdered rest
end

mutual
/-- How many arrays and objects lie around each other at the deepest place. -/
def depth : Value → Nat
  | .array items => itemsDepth items + 1
  | .object members => membersDepth members + 1
  | _ => 0

/-- The deepest nesting among items. -/
def itemsDepth : List Value → Nat
  | [] => 0
  | v :: rest => max v.depth (itemsDepth rest)

/-- The deepest nesting among members. -/
def membersDepth : List (String × Value) → Nat
  | [] => 0
  | (_, v) :: rest => max v.depth (membersDepth rest)
end

mutual
/-- No double occurs inside. -/
def RealFree : Value → Prop
  | .number (.real _) => False
  | .array items => ItemsRealFree items
  | .object members => MembersRealFree members
  | _ => True

/-- No double occurs in any item. -/
def ItemsRealFree : List Value → Prop
  | [] => True
  | v :: rest => v.RealFree ∧ ItemsRealFree rest

/-- No double occurs in any member's value. -/
def MembersRealFree : List (String × Value) → Prop
  | [] => True
  | (_, v) :: rest => v.RealFree ∧ MembersRealFree rest
end

mutual
/-- Whether two values are the same. -/
def decEq : (a b : Value) → Decidable (a = b)
  | .null, b => match b with
    | .null => isTrue rfl
    | .bool _ | .number _ | .string _ | .array _ | .object _ => isFalse nofun
  | .bool x, b => match b with
    | .bool y => if h : x = y then isTrue (h ▸ rfl) else isFalse fun e => h (Value.bool.inj e)
    | .null | .number _ | .string _ | .array _ | .object _ => isFalse nofun
  | .number x, b => match b with
    | .number y => if h : x = y then isTrue (h ▸ rfl) else isFalse fun e => h (Value.number.inj e)
    | .null | .bool _ | .string _ | .array _ | .object _ => isFalse nofun
  | .string x, b => match b with
    | .string y => if h : x = y then isTrue (h ▸ rfl) else isFalse fun e => h (Value.string.inj e)
    | .null | .bool _ | .number _ | .array _ | .object _ => isFalse nofun
  | .array x, b => match b with
    | .array y => match decEqItems x y with
      | isTrue h => isTrue (h ▸ rfl)
      | isFalse h => isFalse fun e => h (Value.array.inj e)
    | .null | .bool _ | .number _ | .string _ | .object _ => isFalse nofun
  | .object x, b => match b with
    | .object y => match decEqMembers x y with
      | isTrue h => isTrue (h ▸ rfl)
      | isFalse h => isFalse fun e => h (Value.object.inj e)
    | .null | .bool _ | .number _ | .string _ | .array _ => isFalse nofun

/-- Whether two lists of items are the same. -/
def decEqItems : (a b : List Value) → Decidable (a = b)
  | [], [] => isTrue rfl
  | [], _ :: _ => isFalse nofun
  | _ :: _, [] => isFalse nofun
  | x :: xs, y :: ys => match decEq x y, decEqItems xs ys with
    | isTrue h, isTrue hs => isTrue (h ▸ hs ▸ rfl)
    | isFalse h, _ => isFalse fun e => h (List.cons.inj e).1
    | _, isFalse hs => isFalse fun e => hs (List.cons.inj e).2

/-- Whether two lists of members are the same. -/
def decEqMembers : (a b : List (String × Value)) → Decidable (a = b)
  | [], [] => isTrue rfl
  | [], _ :: _ => isFalse nofun
  | _ :: _, [] => isFalse nofun
  | (k, x) :: xs, (l, y) :: ys =>
    if hk : k = l then
      match decEq x y, decEqMembers xs ys with
      | isTrue h, isTrue hs => isTrue (hk ▸ h ▸ hs ▸ rfl)
      | isFalse h, _ => isFalse fun e => h (Prod.mk.inj (List.cons.inj e).1).2
      | _, isFalse hs => isFalse fun e => hs (List.cons.inj e).2
    else isFalse fun e => hk (Prod.mk.inj (List.cons.inj e).1).1
end

instance : DecidableEq Value := decEq

end Value
end Turnstile.Json
