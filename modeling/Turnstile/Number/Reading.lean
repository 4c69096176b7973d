import Turnstile.Number.Binary64

/-!
# Reading decimal text as a floating-point number

A decimal text is an optional sign, digits with an optional point among or beside
them, and an optional exponent; or it names an infinity or NaN in any letter case.
The value is the number of the format nearest to the decimal.
-/

namespace Turnstile.Number

/-- A magnitude as read: `coefficient * 10 ^ exponent`, or one of the named values. -/
inductive Magnitude
  | decimal (coefficient : Nat) (exponent : Int)
  | infinite
  | notANumber
  deriving DecidableEq, Repr

/-- The number that a run of decimal digits continues. -/
def digitsValue (start : Nat) (digits : List Char) : Nat :=
  digits.foldl (fun n c => n * 10 + (c.toNat - 48)) start

/-- An exponent part after its letter. -/
def exponent? (chars : List Char) : Option Int :=
  let (negative, digits) := match chars with
    | '-' :: rest => (true, rest)
    | '+' :: rest => (false, rest)
    | rest => (false, rest)
  if digits.isEmpty || !digits.all Char.isDigit then none
  else some (if negative then -(digitsValue 0 digits : Int) else digitsValue 0 digits)

/-- A text without its sign. -/
def magnitude? (chars : List Char) : Option Magnitude :=
  let name := chars.map Char.toLower
  if name = "inf".toList || name = "infinity".toList then some .infinite
  else if name = "nan".toList then some .notANumber
  else
    let whole := chars.takeWhile Char.isDigit
    let rest := chars.dropWhile Char.isDigit
    let (fraction, rest) := match rest with
      | '.' :: more => (more.takeWhile Char.isDigit, more.dropWhile Char.isDigit)
      | more => ([], more)
    if whole.isEmpty && fraction.isEmpty then none
    else
      let coefficient := digitsValue (digitsValue 0 whole) fraction
      match rest with
      | [] => some (.decimal coefficient (-(fraction.length : Int)))
      | c :: more =>
        if c = 'e' || c = 'E' then
          (exponent? more).map fun e => .decimal coefficient (e - fraction.length)
        else none

/-- Sign and magnitude of a decimal text. -/
def signed? (text : String) : Option (Bool × Magnitude) :=
  match text.toList with
  | '-' :: rest => (magnitude? rest).map (true, ·)
  | '+' :: rest => (magnitude? rest).map (false, ·)
  | rest => (magnitude? rest).map (false, ·)

/-- Keeps exponents in the range beyond which every nonzero decimal under- or overflows. -/
def clampExponent (coefficient : Nat) (exponent : Int) : Int :=
  let digits : Int := Nat.log2 coefficient
  max (-400 - digits) (min 400 exponent)

/-- The double nearest to a decimal text. -/
def readDouble? (text : String) : Option Binary64 := do
  let (negative, magnitude) ← signed? text
  let value : Float := match magnitude with
    | .infinite => 1.0 / 0.0
    | .notANumber => 0.0 / 0.0
    | .decimal c e =>
      let e := clampExponent c e
      if 0 ≤ e then Float.ofScientific c false e.toNat else Float.ofScientific c true (-e).toNat
  some (Binary64.ofFloat (if negative then -value else value))

/-- The double that carries the single-precision number nearest to a decimal text. -/
def readSingle? (text : String) : Option Binary64 := do
  let (negative, magnitude) ← signed? text
  let value : Float32 := match magnitude with
    | .infinite => 1.0 / 0.0
    | .notANumber => 0.0 / 0.0
    | .decimal c e =>
      let e := clampExponent c e
      if 0 ≤ e then Float32.ofScientific c false e.toNat
      else Float32.ofScientific c true (-e).toNat
  some (Binary64.ofSingle (if negative then -value else value))

end Turnstile.Number
