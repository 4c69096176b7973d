import Turnstile.Json.ReadError

/-!
# Reading JSON text

A reader consumes a byte string from the front and either yields a value or fails at
the first fault in reading order. Arrays and objects are read by folding a step over
their items or members; the unread text itself bounds the number of rounds, since each
round takes at least one byte of it.
-/

namespace Turnstile.Json

/-- A reader of values from the front of a byte string. -/
abbrev Reader := StateT Bytes (Except ReadError)

namespace Reader

/-- The byte of an ASCII character. -/
def byte (c : Char) : UInt8 := UInt8.ofNat c.toNat

/-- The four bytes that may stand between tokens. -/
def isBlank (b : UInt8) : Bool := b == 0x20 || b == 0x0A || b == 0x09 || b == 0x0D

/-- A decimal digit. -/
def isDigit (b : UInt8) : Bool := 0x30 ≤ b && b ≤ 0x39

/-- The next byte that is not blank, left unread. -/
def peek : Reader (Option UInt8) := fun s =>
  let rest := s.dropWhile isBlank
  .ok (rest.head?, rest)

/-- Passes over one byte. -/
def advance : Reader Unit := fun s => .ok ((), s.tail)

/-- The letters that complete a word. -/
def word : List UInt8 → Reader Unit
  | [] => pure ()
  | c :: more => fun s =>
    match s with
    | [] => .error (.ended .value)
    | b :: rest => if b = c then word more rest else .error .expectedIdent

/-- The letters of a word after its first. -/
def wordTail (text : String) : Reader Unit := word (text.toList.map byte)

/-! ## Numbers -/

/-- The greatest significand that is kept exactly. -/
def significandBound : Nat := UInt64.size - 1

/-- Appends digits to a significand as long as it fits; yields the digits that no longer do. -/
def absorb : Nat → Bytes → Nat × Bytes
  | significand, [] => (significand, [])
  | significand, d :: rest =>
    let next := significand * 10 + (d.toNat - 48)
    if significandBound < next then (significand, d :: rest) else absorb next rest

/-- The power of ten as a double. -/
def powerOfTen (n : Nat) : Float := Float.ofScientific 1 false n

/-- Divides by `10 ^ n`, by at most `10 ^ 308` at a time. Every significand has become zero
after three divisions. -/
def scaleDown : Nat → Float → Nat → Float
  | 0, x, _ => x
  | rounds + 1, x, n =>
    if n ≤ 308 then x / powerOfTen n
    else if x == 0 then x
    else scaleDown rounds (x / powerOfTen 308) (n - 308)

/-- The double `significand * 10 ^ exponent`, computed in floating point. -/
def scaled (positive : Bool) (significand : Nat) (exponent : Int) : Except ReadError Number :=
  let sign (x : Float) : Number := .real (.ofFloat (if positive then x else -x))
  let x := significand.toUInt64.toFloat
  if exponent < 0 then .ok (sign (scaleDown 4 x (-exponent).toNat))
  else if 308 < exponent then if x == 0 then .ok (sign x) else .error .numberOutOfRange
  else
    let y := x * powerOfTen exponent.toNat
    if y.isInf then .error .numberOutOfRange else .ok (sign y)

/-- The greatest exponent that is kept exactly. -/
def exponentBound : Nat := 0x7FFFFFFF

/-- The value of exponent digits, unless it exceeds the bound. -/
def exponentValue? : Nat → Bytes → Option Nat
  | n, [] => some n
  | n, d :: rest =>
    let next := n * 10 + (d.toNat - 48)
    if exponentBound < next then none else exponentValue? next rest

/-- An exponent after its letter, for a significand that is already scaled by `start`. -/
def exponentPart (positive : Bool) (significand : Nat) (start : Int) : Reader Number := do
  let s ← get
  let (raises, s) := match s with
    | b :: rest => if b = byte '+' then (true, rest) else if b = byte '-' then (false, rest)
      else (true, s)
    | [] => (true, s)
  let digits := s.takeWhile isDigit
  if s.isEmpty then throw (.ended .value)
  if digits.isEmpty then throw .invalidNumber
  set (s.dropWhile isDigit)
  match exponentValue? 0 digits with
  | some e => scaled positive significand (if raises then start + e else start - e)
  | none =>
    if significand ≠ 0 ∧ raises then throw .numberOutOfRange
    else pure (.real (.ofFloat (if positive then 0.0 else -0.0)))

/-- Whether an exponent begins here. -/
def atExponent (s : Bytes) : Bool :=
  match s with
  | b :: _ => b == byte 'e' || b == byte 'E'
  | [] => false

/-- The end of a number that is known to be a double. -/
def realTail (positive : Bool) (significand : Nat) (exponent : Int) : Reader Number := do
  if atExponent (← get) then
    advance
    exponentPart positive significand exponent
  else scaled positive significand exponent

/-- A fraction after its point. -/
def fractionPart (positive : Bool) (significand : Nat) (dropped : Nat) : Reader Number := do
  let s ← get
  let digits := s.takeWhile isDigit
  if digits.isEmpty then throw (if s.isEmpty then .ended .value else .invalidNumber)
  set (s.dropWhile isDigit)
  let (significand, unused) := absorb significand digits
  realTail positive significand (dropped - (digits.length - unused.length : Nat))

/-- A whole number with its sign; a negative zero and numbers below 64 bits become doubles. -/
def wholeOrReal (positive : Bool) (significand : Nat) : Number :=
  if positive then
    match Whole.ofInt? significand with
    | some n => .whole n
    | none => .real (.ofFloat significand.toUInt64.toFloat)
  else if significand = 0 then .real (.ofFloat (-0.0))
  else
    match Whole.ofInt? (-(significand : Int)) with
    | some n => .whole n
    | none => .real (.ofFloat (-significand.toUInt64.toFloat))

/-- A number after its sign. -/
def number (positive : Bool) : Reader Number := do
  let s ← get
  let digits := s.takeWhile isDigit
  match digits with
  | [] => throw (if s.isEmpty then .ended .value else .invalidNumber)
  | d :: more =>
    if d = byte '0' ∧ ¬more.isEmpty then throw .invalidNumber
    set (s.dropWhile isDigit)
    let (significand, unused) := absorb 0 digits
    match ← get with
    | b :: rest =>
      if b = byte '.' then
        set rest
        fractionPart positive significand unused.length
      else if atExponent (b :: rest) || !unused.isEmpty then
        realTail positive significand unused.length
      else pure (wholeOrReal positive significand)
    | [] =>
      if unused.isEmpty then pure (wholeOrReal positive significand)
      else scaled positive significand unused.length

/-! ## Strings -/

/-- The value of four hexadecimal digits. -/
def hex4? (a b c d : UInt8) : Option Nat := do
  let digit (b : UInt8) := Hex.digitValue? (Char.ofNat b.toNat)
  let a ← digit a
  let b ← digit b
  let c ← digit c
  let d ← digit d
  some (((a * 16 + b) * 16 + c) * 16 + d)

/-- The byte that a one-letter escape stands for. -/
def simpleEscape? (e : UInt8) : Option UInt8 :=
  if e = byte '"' ∨ e = byte '\\' ∨ e = byte '/' then some e
  else if e = byte 'b' then some 0x08
  else if e = byte 'f' then some 0x0C
  else if e = byte 'n' then some 0x0A
  else if e = byte 'r' then some 0x0D
  else if e = byte 't' then some 0x09
  else none

/-- The bytes of a code point in front of bytes kept in reverse. -/
def pushCodePoint (n : Nat) (reversed : Bytes) : Bytes :=
  (String.utf8EncodeChar (Char.ofNat n)).reverse ++ reversed

/-- The bytes of a string up to its closing quote, escapes resolved, and what follows it. The
bytes read so far are given in reverse. -/
def unquote (reversed : Bytes) : Bytes → Except ReadError (Bytes × Bytes)
  | [] => .error (.ended .string)
  | b :: rest =>
    if b = byte '"' then .ok (reversed.reverse, rest)
    else if b = byte '\\' then
      match rest with
      | [] => .error (.ended .string)
      | e :: rest =>
        match simpleEscape? e with
        | some c => unquote (c :: reversed) rest
        | none =>
          if e = byte 'u' then
            match rest with
            | h₀ :: h₁ :: h₂ :: h₃ :: rest =>
              match hex4? h₀ h₁ h₂ h₃ with
              | none => .error .invalidEscape
              | some n =>
                if 0xDC00 ≤ n ∧ n ≤ 0xDFFF then .error .loneSurrogate
                else if n < 0xD800 ∨ 0xDBFF < n then unquote (pushCodePoint n reversed) rest
                else
                  match rest with
                  | [] => .error (.ended .string)
                  | [x] =>
                    if x = byte '\\' then .error (.ended .string)
                    else .error .unexpectedEndOfEscape
                  | x :: y :: rest =>
                    if x ≠ byte '\\' ∨ y ≠ byte 'u' then .error .unexpectedEndOfEscape
                    else
                      match rest with
                      | l₀ :: l₁ :: l₂ :: l₃ :: rest =>
                        match hex4? l₀ l₁ l₂ l₃ with
                        | none => .error .invalidEscape
                        | some m =>
                          if m < 0xDC00 ∨ 0xDFFF < m then .error .loneSurrogate
                          else
                            let n := (n - 0xD800) * 0x400 + (m - 0xDC00) + 0x10000
                            unquote (pushCodePoint n reversed) rest
                      | _ => .error (.ended .string)
            | _ => .error (.ended .string)
          else .error .invalidEscape
    else if b < 0x20 then .error .controlCharacter
    else unquote (b :: reversed) rest

/-- A string after its opening quote. -/
def stringBody : Reader String := fun s => do
  let (content, rest) ← unquote [] s
  match Bytes.toText? content with
  | some text => .ok (text, rest)
  | none => .error .invalidUnicode

/-- What follows a string whose content nobody asks for. Escapes must be complete, but need
not form characters. -/
def skipQuoted : Bytes → Except ReadError Bytes
  | [] => .error (.ended .string)
  | b :: rest =>
    if b = byte '"' then .ok rest
    else if b = byte '\\' then
      match rest with
      | [] => .error (.ended .string)
      | e :: rest =>
        if e = byte 'u' then
          match rest with
          | h₀ :: h₁ :: h₂ :: h₃ :: rest =>
            if (hex4? h₀ h₁ h₂ h₃).isSome then skipQuoted rest else .error .invalidEscape
          | _ => .error (.ended .string)
        else if (simpleEscape? e).isSome then skipQuoted rest
        else .error .invalidEscape
    else if b < 0x20 then .error .controlCharacter
    else skipQuoted rest

/-- Passes over a string after its opening quote. -/
def skipString : Reader Unit := fun s => (skipQuoted s).map ((), ·)

/-! ## Arrays and objects -/

/-- Whether another item follows, and moves to it. -/
def nextItem (first : Bool) : Reader Bool := do
  match ← peek with
  | none => throw (.ended .list)
  | some b =>
    if b = byte ']' then pure false
    else if first then pure true
    else if b = byte ',' then
      advance
      match ← peek with
      | none => throw (.ended .value)
      | some b => if b = byte ']' then throw .trailingComma else pure true
    else throw .expectedListSeparator

/-- The key of the next member, if another one follows. -/
def nextKey (first : Bool) : Reader (Option String) := do
  let key (b : UInt8) : Reader (Option String) := do
    if b = byte '"' then
      advance
      some <$> stringBody
    else throw .keyNotString
  match ← peek with
  | none => throw (.ended .object)
  | some b =>
    if b = byte '\x7d' then pure none
    else if first then key b
    else if b = byte ',' then
      advance
      match ← peek with
      | none => throw (.ended .value)
      | some b => if b = byte '\x7d' then throw .trailingComma else key b
    else throw .expectedMemberSeparator

/-- The colon between key and value. -/
def colon : Reader Unit := do
  match ← peek with
  | none => throw (.ended .object)
  | some b => if b = byte ':' then advance else throw .expectedColon

/-- The closing bracket, where the reader wants no further item. -/
def closeArray : Reader Unit := do
  match ← peek with
  | none => throw (.ended .list)
  | some b =>
    if b = byte ']' then advance
    else if b = byte ',' then
      advance
      match ← peek with
      | some b => throw (if b = byte ']' then .trailingComma else .trailingCharacters)
      | none => throw .trailingCharacters
    else throw .trailingCharacters

variable {σ : Type}

/-- Folds a step over the items up to the closing bracket. -/
def foldItems (step : σ → Reader σ) : Bytes → Bool → σ → Reader σ
  | [], _, _ => throw (.ended .list)
  | _ :: unread, first, acc => do
    if ← nextItem first then foldItems step unread false (← step acc) else pure acc

/-- An array after its bracket, folded into a result. -/
def arrayBody (step : σ → Reader σ) (start : σ) : Reader σ := do
  let result ← foldItems step (← get) true start
  advance
  pure result

/-- Folds a step over the members up to the closing brace; the step reads the colon itself. -/
def foldMembers (step : σ → String → Reader σ) : Bytes → Bool → σ → Reader σ
  | [], _, _ => throw (.ended .object)
  | _ :: unread, first, acc => do
    match ← nextKey first with
    | some key => foldMembers step unread false (← step acc key)
    | none => pure acc

/-- An object after its brace, folded into a result. -/
def objectBody (step : σ → String → Reader σ) (start : σ) : Reader σ := do
  let result ← foldMembers step (← get) true start
  advance
  pure result

/-! ## Values -/

/-- How many arrays and objects may lie around each other. -/
def nestingLimit : Nat := 127

/-- A value, given the readers of arrays and of objects after their opening. -/
def valueWith (array object : Reader Value) : Reader Value := do
  match ← peek with
  | none => throw (.ended .value)
  | some b =>
    if b = byte 'n' then advance; wordTail "ull"; pure .null
    else if b = byte 't' then advance; wordTail "rue"; pure (.bool true)
    else if b = byte 'f' then advance; wordTail "alse"; pure (.bool false)
    else if b = byte '-' then advance; .number <$> number false
    else if isDigit b then .number <$> number true
    else if b = byte '"' then advance; .string <$> stringBody
    else if b = byte '[' then advance; array
    else if b = byte '\x7b' then advance; object
    else throw .expectedValue

/-- A value whose arrays and objects nest at most so deep. The last of equal keys wins. -/
def value : Nat → Reader Value
  | 0 => valueWith (throw .nestingLimit) (throw .nestingLimit)
  | depth + 1 =>
    valueWith
      (do
        let items ← arrayBody (fun items => do return (← value depth) :: items) []
        pure (.array items.reverse))
      (do
        let members ← objectBody (fun members key => do
          colon
          return Table.insertEntry key (← value depth) members) []
        pure (.object members))

/-! ## Values that nobody asks for -/

/-- What encloses a place inside a value that is passed over. -/
inductive Enclosure
  | list
  | object
  deriving DecidableEq, Repr

/-- Where a passing reader stands: before a value, or behind one or an opening. -/
inductive Place
  | before
  | behind (afterItem : Bool)
  deriving DecidableEq, Repr

/-- A number of any size after its sign. -/
def skipNumber : Reader Unit := do
  let s ← get
  let digits := s.takeWhile isDigit
  match digits with
  | [] => throw .invalidNumber
  | d :: more =>
    if d = byte '0' ∧ ¬more.isEmpty then throw .invalidNumber
    set (s.dropWhile isDigit)
    if (← get).head? = some (byte '.') then
      advance
      let s ← get
      if (s.takeWhile isDigit).isEmpty then throw .invalidNumber
      set (s.dropWhile isDigit)
    if atExponent (← get) then
      advance
      if (← get).head? = some (byte '+') ∨ (← get).head? = some (byte '-') then advance
      let s ← get
      if (s.takeWhile isDigit).isEmpty then throw .invalidNumber
      set (s.dropWhile isDigit)

/-- Passes over a scalar, or opens an array or object. -/
def skipOpening : Reader (Option Enclosure) := do
  match ← peek with
  | none => throw (.ended .value)
  | some b =>
    if b = byte 'n' then advance; wordTail "ull"; pure none
    else if b = byte 't' then advance; wordTail "rue"; pure none
    else if b = byte 'f' then advance; wordTail "alse"; pure none
    else if b = byte '-' then advance; skipNumber; pure none
    else if isDigit b then skipNumber; pure none
    else if b = byte '"' then advance; skipString; pure none
    else if b = byte '[' then advance; pure (some .list)
    else if b = byte '\x7b' then advance; pure (some .object)
    else throw .expectedValue

/-- Passes over the key and colon that an object wants before a value. -/
def skipKey : Enclosure → Reader Unit
  | .list => pure ()
  | .object => do
    match ← peek with
    | none => throw (.ended .object)
    | some b =>
      if b = byte '"' then
        advance
        skipString
        colon
      else throw .keyNotString

/-- Passes over the rest of a value inside the given enclosures, innermost first. -/
def skipRest : Nat → Place → List Enclosure → Reader Unit
  | 0, _, _ => throw (.ended .value)
  | steps + 1, .before, around => do
    match ← skipOpening, around with
    | none, [] => pure ()
    | none, around => skipRest steps (.behind true) around
    | some inner, around => skipRest steps (.behind false) (inner :: around)
  | _ + 1, .behind _, [] => pure ()
  | steps + 1, .behind afterItem, inner :: outer => do
    match ← peek with
    | none => throw (.ended (match inner with | .list => .list | .object => .object))
    | some b =>
      if b = byte ',' ∧ afterItem then
        advance
        skipKey inner
        skipRest steps .before (inner :: outer)
      else if b = byte (match inner with | .list => ']' | .object => '\x7d') then
        advance
        if outer.isEmpty then pure () else skipRest steps (.behind true) outer
      else if afterItem then
        throw (match inner with
          | .list => .expectedListSeparator
          | .object => .expectedMemberSeparator)
      else
        skipKey inner
        skipRest steps .before (inner :: outer)

/-- Passes over a value, however deep. Each byte takes at most two steps. -/
def skipValue : Reader Unit := do skipRest (2 * (← get).length + 2) .before []

/-- Reads a whole text with nothing but blanks around. -/
def document {α : Type} (reader : Reader α) (text : Bytes) : Except ReadError α := do
  let (result, rest) ← reader text
  if (rest.dropWhile isBlank).isEmpty then pure result else throw .trailingCharacters

end Reader

/-- The value that a JSON text denotes. -/
def parse (text : Bytes) : Except ReadError Value :=
  Reader.document (Reader.value Reader.nestingLimit) text

end Turnstile.Json
