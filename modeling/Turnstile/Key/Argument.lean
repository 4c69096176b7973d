import Turnstile.Json.Printer
import Turnstile.Text.Quoted

/-!
# Arguments of a guarded call

An argument has a name, the name of its type and, unless it is a mere resource, a JSON
value. One that could not be turned into JSON is refused only where its value is used.
-/

namespace Turnstile.Key

/-- What is wrong with the text of a key expression. -/
inductive SyntaxFault
  | emptyExpression
  | unexpectedEnd
  | expectedPlus
  | expectedTerm
  | expectedIdentifier
  | expectedDigits
  | expectedAccessor
  | expectedBracket
  | unterminatedText
  | integerRange
  | indexRange
  deriving DecidableEq, Repr

/-- The wording of a fault. -/
def SyntaxFault.message : SyntaxFault → String
  | .emptyExpression => "empty expression"
  | .unexpectedEnd => "unexpected end of expression"
  | .expectedPlus => "expected '+'"
  | .expectedTerm => "expected '#variable', literal or number"
  | .expectedIdentifier => "expected identifier"
  | .expectedDigits => "expected digits"
  | .expectedAccessor => "expected index or quoted key"
  | .expectedBracket => "expected ']'"
  | .unterminatedText => "unterminated string literal"
  | .integerRange => "integer literal out of range"
  | .indexRange => "index out of range"

/-- Why no key was derived. -/
inductive KeyError
  | badSyntax (expression : String) (position : Nat) (fault : SyntaxFault)
  | undefinedVariable (name : String)
  | missingField (path : String)
  | indexOutOfBounds (path : String) (length : Nat)
  | opaqueArgument (name : String)
  | unserializable (name reason : String)
  | invalidTemplate (template : String)
  deriving DecidableEq

/-- The name of the kind of a key error. -/
def KeyError.kind : KeyError → String
  | .badSyntax .. => "Syntax"
  | .undefinedVariable _ => "UndefinedVariable"
  | .missingField _ => "MissingField"
  | .indexOutOfBounds .. => "IndexOutOfBounds"
  | .opaqueArgument _ => "OpaqueArgument"
  | .unserializable .. => "Unserializable"
  | .invalidTemplate _ => "InvalidTemplate"

/-- The wording of a key error. -/
def KeyError.message : KeyError → String
  | .badSyntax expression position fault =>
    s!"Invalid key expression {Text.quote expression} at {position}: {fault.message}"
  | .undefinedVariable name => s!"Key expression references undefined variable #{name}"
  | .missingField path => s!"Key expression path {path} does not exist"
  | .indexOutOfBounds path length =>
    s!"Key expression path {path} is out of bounds (len {length})"
  | .opaqueArgument name => s!"Argument {name} is opaque and cannot be used in a key expression"
  | .unserializable name reason => s!"Argument {name} could not be serialized: {reason}"
  | .invalidTemplate template =>
    s!"Session key template {Text.quote template} must contain \x7bid\x7d"

/-- What an argument contributes to a key. -/
inductive Content
  | value (v : Json.Value)
  | resource
  | unserializable (reason : String)
  deriving DecidableEq

/-- An argument of a guarded call. -/
structure Argument where
  name : String
  typeName : String
  content : Content
  deriving DecidableEq

/-- Whether the argument is a resource without a value. -/
def Argument.isOpaque (argument : Argument) : Bool := argument.content == .resource

/-- The value of an argument that is used in a key. -/
def Argument.value (argument : Argument) : Except KeyError Json.Value :=
  match argument.content with
  | .value v => .ok v
  | .resource => .error (.opaqueArgument argument.name)
  | .unserializable reason => .error (.unserializable argument.name reason)

/-- A value inside a key: texts as they are, all else as JSON. -/
def segment : Json.Value → List Char
  | .string s => s.toList
  | v => v.render

end Turnstile.Key
