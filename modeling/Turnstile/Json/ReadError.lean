import Turnstile.Json.Printer
import Turnstile.Text.Quoted

/-!
# What can be wrong with JSON text

Faults of the text itself, and faults of what it says: a value of another type than
expected, or a record with missing, repeated or too few fields.
-/

namespace Turnstile.Json

/-- What was being read when the text ended. -/
inductive Unfinished
  | value
  | string
  | list
  | object
  deriving DecidableEq, Repr

/-- A value met where another type was expected. -/
inductive Found
  | null
  | bool (b : Bool)
  | number (n : Number)
  | string (s : String)
  | sequence
  | map
  deriving DecidableEq

/-- What was expected instead. -/
inductive Expected
  | string
  | boolean
  | signed
  | unsigned
  | sequence
  | map
  | unit
  | variant
  | record (name : String)
  deriving DecidableEq, Repr

/-- Why a text was not read. -/
inductive ReadError
  | ended (during : Unfinished)
  | expectedValue
  | expectedIdent
  | invalidNumber
  | numberOutOfRange
  | trailingComma
  | expectedListSeparator
  | expectedMemberSeparator
  | expectedColon
  | keyNotString
  | trailingCharacters
  | controlCharacter
  | invalidEscape
  | unexpectedEndOfEscape
  | loneSurrogate
  | invalidUnicode
  | nestingLimit
  | missingField (name : String)
  | duplicateField (name : String)
  | unknownVariant (found first second : String)
  | tooShort (length : Nat) (record : String) (fields : Nat)
  | wrongType (found : Found) (expected : Expected)
  | wrongValue (found : Found) (expected : Expected)
  deriving DecidableEq

/-- The value as an error names it. -/
def Found.describe : Found → String
  | .null => "null"
  | .bool b => s!"boolean `{b}`"
  | .number (.whole n) => s!"integer `{String.ofList (intText n.val)}`"
  | .number (.real x) => s!"floating point `{String.ofList (realText x)}`"
  | .string s => s!"string {Text.quote s}"
  | .sequence => "sequence"
  | .map => "map"

/-- The expectation as an error names it. -/
def Expected.describe : Expected → String
  | .string => "a string"
  | .boolean => "a boolean"
  | .signed => "i64"
  | .unsigned => "u64"
  | .sequence => "a sequence"
  | .map => "a map"
  | .unit => "unit"
  | .variant => "variant identifier"
  | .record name => s!"struct {name}"

/-- The wording of a fault. -/
def ReadError.message : ReadError → String
  | .ended .value => "EOF while parsing a value"
  | .ended .string => "EOF while parsing a string"
  | .ended .list => "EOF while parsing a list"
  | .ended .object => "EOF while parsing an object"
  | .expectedValue => "expected value"
  | .expectedIdent => "expected ident"
  | .invalidNumber => "invalid number"
  | .numberOutOfRange => "number out of range"
  | .trailingComma => "trailing comma"
  | .expectedListSeparator => "expected `,` or `]`"
  | .expectedMemberSeparator => "expected `,` or `\x7d`"
  | .expectedColon => "expected `:`"
  | .keyNotString => "key must be a string"
  | .trailingCharacters => "trailing characters"
  | .controlCharacter => "control character (\\u0000-\\u001F) found while parsing a string"
  | .invalidEscape => "invalid escape"
  | .unexpectedEndOfEscape => "unexpected end of hex escape"
  | .loneSurrogate => "lone leading surrogate in hex escape"
  | .invalidUnicode => "invalid unicode code point"
  | .nestingLimit => "recursion limit exceeded"
  | .missingField name => s!"missing field `{name}`"
  | .duplicateField name => s!"duplicate field `{name}`"
  | .unknownVariant found first second =>
    s!"unknown variant `{found}`, expected `{first}` or `{second}`"
  | .tooShort length record fields =>
    s!"invalid length {length}, expected struct {record} with {fields} element" ++
      if fields = 1 then "" else "s"
  | .wrongType found expected =>
    s!"invalid type: {found.describe}, expected {expected.describe}"
  | .wrongValue found expected =>
    s!"invalid value: {found.describe}, expected {expected.describe}"

end Turnstile.Json
