import Turnstile.Key.Evaluation
import Turnstile.Text.Replace

/-!
# Keys of operations and sessions

Without an expression, an operation's key is its name followed by its arguments, less
the resources and the arguments of ignored types. A session's key fills the caller type
and the binding key into a template.
-/

namespace Turnstile.Key

/-- What follows the last double colon of a type name. -/
def afterLastColons : List Char → Option (List Char)
  | [] => none
  | c :: rest =>
    match afterLastColons rest with
    | some segment => some segment
    | none =>
      match c, rest with
      | ':', ':' :: tail => some tail
      | _, _ => none

/-- The last path segment of a type name, without type parameters. -/
def shortTypeName (typeName : String) : String :=
  let base := typeName.toList.takeWhile (· != '<')
  String.ofList ((afterLastColons base).getD base)

/-- The types whose arguments do not contribute to default keys. -/
structure Deriver where
  ignored : List String
  deriving DecidableEq, Repr

namespace Deriver

variable (deriver : Deriver)

/-- Whether a type is ignored, by its full name or its last path segment. -/
def isIgnored (typeName : String) : Bool :=
  deriver.ignored.any fun name => name == typeName || name == shortTypeName typeName

/-- Whether an argument is left out of default keys. -/
def excludes (argument : Argument) : Bool :=
  argument.isOpaque || deriver.isIgnored argument.typeName

/-- The part of a default key that the arguments make up. -/
def argumentPart : List Argument → Except KeyError (List Char)
  | [] => .ok []
  | argument :: more =>
    if deriver.excludes argument then argumentPart more
    else do
      let head := segment (← argument.value)
      return ':' :: (head ++ (← argumentPart more))

/-- The default key of a call. -/
def defaultKey (scope : Scope) : Except KeyError String := do
  return String.ofList (scope.operation.toList ++ (← deriver.argumentPart scope.arguments))

/-- The key of a call, by the expression if there is one. -/
def operationKey (scope : Scope) (expression : Option Expression) : Except KeyError String :=
  match expression with
  | some expression => expression.evaluate scope
  | none => deriver.defaultKey scope

end Deriver

/-- Stands for the caller type in a session key template. -/
def typePlaceholder : List Char := ['{', 't', 'y', 'p', 'e', '}']

/-- Stands for the binding key in a session key template. -/
def idPlaceholder : List Char := ['{', 'i', 'd', '}']

/-- The template of caller types that name none. -/
def defaultTemplate : String := "session:\x7btype\x7d:\x7bid\x7d"

/-- Refuses a template under which all binding keys would share one entry. -/
def validateTemplate (template : String) : Except KeyError Unit :=
  if Text.occursIn idPlaceholder template.toList then .ok ()
  else .error (.invalidTemplate template)

/-- The session key of a caller type's binding key. The type is filled in first. -/
def sessionKey (template callerType bindingKey : String) : String :=
  String.ofList (Text.replaceAll idPlaceholder bindingKey.toList
    (Text.replaceAll typePlaceholder callerType.toList template.toList))

end Turnstile.Key
