import Turnstile.Json.Value
import Turnstile.Number.Shortest
import Turnstile.Bytes.Hex

/-!
# JSON text

The compact text of a value has no blanks. The indented text puts every item and
member on a line of its own, two blanks deeper than what encloses it; empty arrays
and objects stay on their line. Within strings only the quote, the backslash and the
control characters below U+0020 are escaped.
-/

namespace Turnstile.Json

/-- The characters that stand for one character inside a string. -/
def escapeChar (c : Char) : List Char :=
  if c = '"' then ['\\', '"']
  else if c = '\\' then ['\\', '\\']
  else if c = '\n' then ['\\', 'n']
  else if c = '\r' then ['\\', 'r']
  else if c = '\t' then ['\\', 't']
  else if c = '\x08' then ['\\', 'b']
  else if c = '\x0c' then ['\\', 'f']
  else if c.toNat < 0x20 then
    ['\\', 'u', '0', '0', Hex.digit (c.toNat / 16), Hex.digit (c.toNat % 16)]
  else [c]

/-- A text in quotes. -/
def quoted (s : String) : List Char := '"' :: (s.toList.flatMap escapeChar ++ ['"'])

/-- How doubles are written. -/
structure RealLayout where
  /-- The least decimal exponent of the first digit that is written positionally. -/
  positionalFrom : Int
  /-- The first decimal exponent that is no longer written positionally. -/
  positionalBelow : Int
  /-- Whether a positive exponent carries its sign. -/
  plusSign : Bool

/-- Doubles between `0.00001` and `10 ^ 16` are written positionally, with a digit on both sides
of the point; all others with an exponent that always has a sign. -/
def realLayout : RealLayout := ⟨-5, 16, true⟩

/-- An integer in decimal. -/
def intText (n : Int) : List Char :=
  if n < 0 then '-' :: Nat.toDigits 10 n.natAbs else Nat.toDigits 10 n.natAbs

/-- A decimal of the given digits whose first digit has the given exponent. -/
def RealLayout.decimalText (layout : RealLayout) (digits : List Char) (first : Int) :
    List Char :=
  if layout.positionalFrom ≤ first ∧ first < layout.positionalBelow then
    if first < 0 then
      '0' :: '.' :: (List.replicate (-first - 1).toNat '0' ++ digits)
    else
      let whole := first.toNat + 1
      let fraction := digits.drop whole
      digits.take whole ++ List.replicate (whole - digits.length) '0' ++
        '.' :: (if fraction.isEmpty then ['0'] else fraction)
  else
    let sign := if 0 ≤ first ∧ layout.plusSign then ['+'] else []
    let fraction := digits.drop 1
    digits.take 1 ++ (if fraction.isEmpty then [] else '.' :: fraction) ++
      'e' :: (sign ++ intText first)

/-- A double, in the fewest digits that read back; null if it is not finite. -/
def realText (x : Binary64) : List Char :=
  if !x.isFinite then "null".toList
  else
    let magnitude :=
      if x.isZero then "0.0".toList
      else
        let d := Number.shortest x
        let digits := Nat.toDigits 10 d.coefficient
        realLayout.decimalText digits (d.exponent + digits.length - 1)
    if x.isNegative then '-' :: magnitude else magnitude

/-- A number's text. -/
def Number.render : Number → List Char
  | .whole n => intText n.val
  | .real x => realText x

namespace Value

mutual
/-- The compact text. -/
def render : Value → List Char
  | .null => "null".toList
  | .bool true => "true".toList
  | .bool false => "false".toList
  | .number n => n.render
  | .string s => quoted s
  | .array items => '[' :: (renderItems items ++ [']'])
  | .object members => '{' :: (renderMembers members ++ ['}'])

/-- Items with commas between. -/
def renderItems : List Value → List Char
  | [] => []
  | v :: rest => v.render ++ renderMoreItems rest

/-- Items with a comma before each. -/
def renderMoreItems : List Value → List Char
  | [] => []
  | v :: rest => ',' :: (v.render ++ renderMoreItems rest)

/-- Members with commas between. -/
def renderMembers : List (String × Value) → List Char
  | [] => []
  | (k, v) :: rest => quoted k ++ ':' :: (v.render ++ renderMoreMembers rest)

/-- Members with a comma before each. -/
def renderMoreMembers : List (String × Value) → List Char
  | [] => []
  | (k, v) :: rest => ',' :: (quoted k ++ ':' :: (v.render ++ renderMoreMembers rest))
end

/-- The compact text of a value. -/
def toText (v : Value) : String := String.ofList v.render

/-- The compact text of a value, in UTF-8. -/
def toBytes (v : Value) : Bytes := Bytes.ofText v.toText

/-- A new line at the given depth. -/
def newLine (level : Nat) : List Char := '\n' :: List.replicate (2 * level) ' '

mutual
/-- The indented text of a value at the given depth. -/
def renderIndented (level : Nat) : Value → List Char
  | .array [] => "[]".toList
  | .array (v :: rest) =>
    '[' :: (newLine (level + 1) ++ v.renderIndented (level + 1) ++ indentedItems level rest)
  | .object [] => ['{', '}']
  | .object ((k, v) :: rest) =>
    '{' :: (newLine (level + 1) ++ quoted k ++ ':' :: ' ' :: v.renderIndented (level + 1) ++
      indentedMembers level rest)
  | v => v.render

/-- The further items of an array and its closing bracket. -/
def indentedItems (level : Nat) : List Value → List Char
  | [] => newLine level ++ [']']
  | v :: rest =>
    ',' :: (newLine (level + 1) ++ v.renderIndented (level + 1) ++ indentedItems level rest)

/-- The further members of an object and its closing brace. -/
def indentedMembers (level : Nat) : List (String × Value) → List Char
  | [] => newLine level ++ ['}']
  | (k, v) :: rest =>
    ',' :: (newLine (level + 1) ++ quoted k ++ ':' :: ' ' :: v.renderIndented (level + 1) ++
      indentedMembers level rest)
end

/-- The indented text of a value. -/
def toIndentedText (v : Value) : String := String.ofList (v.renderIndented 0)

end Value
end Turnstile.Json
