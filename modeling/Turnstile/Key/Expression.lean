import Turnstile.Key.Argument
import Turnstile.Text.Basic

/-!
# Key expressions

An expression is a sum of terms: quoted texts, integers, and variables with fields and
indices behind them. Blanks may stand around terms and inside brackets, nowhere else.
A fault is reported with the number of characters before it.
-/

namespace Turnstile.Key

/-- A step from a value to a part of it. -/
inductive Accessor
  | field (name : String)
  | index (n : Nat)
  deriving DecidableEq, Repr

/-- A summand of a key expression. -/
inductive Term
  | text (s : String)
  | integer (n : Int64)
  | variable (name : String) (path : List Accessor)
  deriving DecidableEq, Repr

/-- A key expression, with the text it was read from. -/
structure Expression where
  source : String
  terms : List Term
  deriving DecidableEq, Repr

namespace Expression

/-- Where reading stopped, and why. -/
structure Stop where
  fault : SyntaxFault
  unread : List Char

/-- A reader of the characters of an expression. -/
abbrev Scan := StateT (List Char) (Except Stop)

/-- Stops at the place reached. -/
def stop {α : Type} (fault : SyntaxFault) : Scan α := fun cs => .error ⟨fault, cs⟩

/-- Passes over blanks. -/
def skipBlanks : Scan Unit := fun cs => .ok ((), cs.dropWhile Text.isBlank)

/-- A character of an identifier. -/
def isIdentifierChar (c : Char) : Bool := c.isAlphanum || c == '_'

/-- The longest run of characters of a class. -/
def run (isIn : Char → Bool) : Scan (List Char) := fun cs =>
  .ok (cs.takeWhile isIn, cs.dropWhile isIn)

/-- One or more letters, digits and underscores. -/
def identifier : Scan String := do
  match (← get).takeWhile isIdentifierChar with
  | [] => stop .expectedIdentifier
  | name => do
    set ((← get).dropWhile isIdentifierChar)
    pure (String.ofList name)

/-- The value of decimal digits. -/
def decimal (digits : List Char) : Nat := digits.foldl (fun n c => n * 10 + (c.toNat - 48)) 0

/-- A quoted text behind its opening quote, and what follows; a doubled quote stands for itself. -/
def quotedText (quote : Char) : List Char → Except Stop (List Char × List Char)
  | [] => .error ⟨.unterminatedText, []⟩
  | [c] => if c = quote then .ok ([], []) else .error ⟨.unterminatedText, []⟩
  | c :: d :: rest =>
    if c = quote then
      if d = quote then do
        let (text, rest) ← quotedText quote rest
        pure (quote :: text, rest)
      else .ok ([], d :: rest)
    else do
      let (text, rest) ← quotedText quote (d :: rest)
      pure (c :: text, rest)

/-- Whether a character opens a quoted text. -/
def isQuote (c : Char) : Bool := c == '\'' || c == '"'

/-- A quoted text from its opening quote on. -/
def quoted : Scan String := fun cs =>
  match cs with
  | [] => .error ⟨.unexpectedEnd, []⟩
  | quote :: rest => do
    let (text, rest) ← quotedText quote rest
    pure (String.ofList text, rest)

/-- What stands between brackets. -/
def bracketed : Scan Accessor := do
  skipBlanks
  let accessor ← do
    match ← get with
    | c :: _ =>
      if isQuote c then .field <$> quoted
      else if c.isDigit then
        let n := decimal (← run Char.isDigit)
        if n < UInt64.size then pure (.index n) else stop .indexRange
      else stop .expectedAccessor
    | [] => stop .expectedAccessor
  skipBlanks
  match ← get with
  | ']' :: rest => do
    set rest
    pure accessor
  | _ => stop .expectedBracket

/-- The accessors behind a variable. The unread text bounds their number. -/
def accessors : List Char → Scan (List Accessor)
  | [] => pure []
  | _ :: bound => do
    match ← get with
    | '.' :: rest => do
      set rest
      let name ← identifier
      return .field name :: (← accessors bound)
    | '[' :: rest => do
      set rest
      let accessor ← bracketed
      return accessor :: (← accessors bound)
    | _ => pure []

/-- An integer of 64 bits from its sign and digits. -/
def integerTerm (negative : Bool) (digits : List Char) : Scan Term :=
  let n : Int := if negative then -(decimal digits : Int) else decimal digits
  if -0x8000000000000000 ≤ n ∧ n < 0x8000000000000000 then pure (.integer (Int64.ofInt n))
  else stop .integerRange

/-- A term. -/
def term : Scan Term := do
  match ← get with
  | [] => stop .unexpectedEnd
  | '#' :: rest => do
    set rest
    let name ← identifier
    return .variable name (← accessors (← get))
  | '-' :: rest =>
    if (rest.takeWhile Char.isDigit).isEmpty then stop .expectedDigits
    else do
      set rest
      integerTerm true (← run Char.isDigit)
  | c :: _ =>
    if isQuote c then .text <$> quoted
    else if c.isDigit then do integerTerm false (← run Char.isDigit)
    else stop .expectedTerm

/-- The terms behind the first one. The unread text bounds their number. -/
def moreTerms : List Char → Scan (List Term)
  | [] => pure []
  | _ :: bound => do
    skipBlanks
    match ← get with
    | [] => pure []
    | '+' :: rest => do
      set rest
      skipBlanks
      let next ← term
      return next :: (← moreTerms bound)
    | _ => stop .expectedPlus

/-- The terms of a whole expression. -/
def allTerms : Scan (List Term) := do
  skipBlanks
  if (← get).isEmpty then stop .emptyExpression
  let first ← term
  return first :: (← moreTerms (← get))

/-- Reads an expression. -/
def parse (source : String) : Except KeyError Expression :=
  let chars := source.toList
  match allTerms chars with
  | .ok (terms, _) => .ok ⟨source, terms⟩
  | .error ⟨fault, unread⟩ =>
    .error (.badSyntax source (chars.length - unread.length) fault)

end Expression
end Turnstile.Key
