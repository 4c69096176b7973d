import Turnstile.Json.Reader

/-!
# Reading records

A record is written as an object, whose unknown members are passed over, or as the
array of its fields in order. While it is read, a draft keeps the fields met so far, so
that a repeated field is refused where it stands and a missing one at the end.
-/

namespace Turnstile.Json

namespace Reader

variable {α σ δ : Type}

/-- Refuses the value that comes next for its type; a fault inside it comes first. -/
def wrongType (expected : Expected) : Reader α := do
  let refuse (found : Found) : Reader α := throw (.wrongType found expected)
  match ← peek with
  | none => throw .expectedValue
  | some b =>
    if b = byte 'n' then advance; wordTail "ull"; refuse .null
    else if b = byte 't' then advance; wordTail "rue"; refuse (.bool true)
    else if b = byte 'f' then advance; wordTail "alse"; refuse (.bool false)
    else if b = byte '-' then advance; refuse (.number (← number false))
    else if isDigit b then refuse (.number (← number true))
    else if b = byte '"' then advance; refuse (.string (← stringBody))
    else if b = byte '[' then refuse .sequence
    else if b = byte '\x7b' then refuse .map
    else throw .expectedValue

/-- Reads what begins with an expected byte, and refuses anything else. -/
def opened (opening : Char) (expected : Expected) (body : Reader α) : Reader α := do
  match ← peek with
  | none => throw (.ended .value)
  | some b =>
    if b = byte opening then
      advance
      body
    else wrongType expected

/-- A text. -/
def text : Reader String := opened '"' .string stringBody

/-- A truth value. -/
def flag : Reader Bool := do
  match ← peek with
  | none => throw (.ended .value)
  | some b =>
    if b = byte 't' then advance; wordTail "rue"; pure true
    else if b = byte 'f' then advance; wordTail "alse"; pure false
    else wrongType .boolean

/-- A number, to be judged by the type that is wanted. -/
def numberFor (expected : Expected) (accept : Whole → Option α) : Reader α := do
  let judge (n : Number) : Reader α :=
    match n with
    | .whole w =>
      match accept w with
      | some a => pure a
      | none => throw (.wrongValue (.number n) expected)
    | .real _ => throw (.wrongType (.number n) expected)
  match ← peek with
  | none => throw (.ended .value)
  | some b =>
    if b = byte '-' then advance; judge (← number false)
    else if isDigit b then judge (← number true)
    else wrongType expected

/-- A whole number of 64 bits without sign. -/
def unsigned : Reader UInt64 :=
  numberFor .unsigned fun w => if 0 ≤ w.val then some (UInt64.ofNat w.val.toNat) else none

/-- A whole number of 64 bits with a sign. -/
def signed : Reader Int64 :=
  numberFor .signed fun w => if w.val < 0x8000000000000000 then some (Int64.ofInt w.val) else none

/-- Null, or something. -/
def optional (reader : Reader α) : Reader (Option α) := do
  if (← peek) = some (byte 'n') then
    advance
    wordTail "ull"
    pure none
  else some <$> reader

/-- A reader of what lies inside one more array or object. -/
def nested (depth : Nat) (body : Nat → Reader α) : Reader α :=
  match depth with
  | 0 => throw .nestingLimit
  | depth + 1 => body depth

/-- An array whose items are read alike. -/
def list (item : Nat → Reader α) (depth : Nat) : Reader (List α) :=
  opened '[' .sequence <| nested depth fun depth => do
    let items ← arrayBody (fun items => do return (← item depth) :: items) []
    pure items.reverse

/-- An object with any keys, whose values are read alike. -/
def table (item : Nat → Reader α) (depth : Nat) : Reader (Table α) :=
  opened '\x7b' .map <| nested depth fun depth =>
    objectBody (fun t key => do
      colon
      return t.insert key (← item depth)) Table.empty

/-- One of two names, as a text or as the key of an object that holds null. -/
def oneOf (first second : String × α) (depth : Nat) : Reader α := do
  let choose (name : String) : Reader α :=
    if name = first.1 then pure first.2
    else if name = second.1 then pure second.2
    else throw (.unknownVariant name first.1 second.1)
  match ← peek with
  | none => throw (.ended .value)
  | some b =>
    if b = byte '"' then
      advance
      choose (← stringBody)
    else if b = byte '\x7b' then
      nested depth fun _ => do
        advance
        let choice ← choose (← opened '"' .variant stringBody)
        colon
        opened 'n' .unit (wordTail "ull")
        match ← peek with
        | none => throw (.ended .object)
        | some b =>
          if b = byte '\x7d' then
            advance
            pure choice
          else throw .expectedValue
    else throw .expectedValue

end Reader

/-- A field of a record with drafts of type `δ`. -/
structure Field (δ : Type) where
  name : String
  /-- Whether the draft has the field already. -/
  present : δ → Bool
  /-- Reads the field's value into the draft. -/
  read : Nat → δ → Reader δ
  /-- Whether an array may end before the field. -/
  mayEndBefore : Bool

/-- A field kept in an optional place of the draft. -/
def Field.of {δ α : Type} (name : String) (mayEndBefore : Bool) (get : δ → Option α)
    (put : δ → α → δ) (read : Nat → Reader α) : Field δ where
  name
  present d := (get d).isSome
  read depth d := do return put d (← read depth)
  mayEndBefore

/-- How a record is read: its fields in order, its empty draft and the record of a draft. -/
structure RecordLayout (δ α : Type) where
  name : String
  fields : List (Field δ)
  blank : δ
  finish : δ → Except ReadError α

/-- A field that the draft must have. -/
def required {α : Type} (name : String) : Option α → Except ReadError α
  | some a => .ok a
  | none => .error (.missingField name)

namespace RecordLayout

variable {δ α : Type} (layout : RecordLayout δ α)

/-- Reads the value of a member into the draft. -/
def member (depth : Nat) (draft : δ) (key : String) : Reader δ := do
  match layout.fields.find? (·.name = key) with
  | some field =>
    if field.present draft then throw (.duplicateField key)
    Reader.colon
    field.read depth draft
  | none =>
    Reader.colon
    Reader.skipValue
    pure draft

/-- Reads fields in order into the draft; `index` fields have been read before. -/
def positional (depth : Nat) : List (Field δ) → Nat → Bool → δ → Reader δ
  | [], _, _, draft => pure draft
  | field :: more, index, first, draft => do
    if ← Reader.nextItem first then
      positional depth more (index + 1) false (← field.read depth draft)
    else if field.mayEndBefore then positional depth more (index + 1) first draft
    else throw (.tooShort index layout.name layout.fields.length)

/-- Reads a record, as an object or as an array. -/
def read (depth : Nat) : Reader α := do
  match ← Reader.peek with
  | none => throw (.ended .value)
  | some b =>
    if b = Reader.byte '[' then
      Reader.nested depth fun depth => do
        Reader.advance
        let draft ← layout.positional depth layout.fields 0 true layout.blank
        let record ← (layout.finish draft : Except ReadError α)
        Reader.closeArray
        pure record
    else if b = Reader.byte '\x7b' then
      Reader.nested depth fun depth => do
        Reader.advance
        let draft ← Reader.objectBody (layout.member depth) layout.blank
        (layout.finish draft : Except ReadError α)
    else Reader.wrongType (.record layout.name)

/-- Reads a whole text as a record. -/
def parse (text : Bytes) : Except ReadError α :=
  Reader.document (layout.read Reader.nestingLimit) text

end RecordLayout
end Turnstile.Json
