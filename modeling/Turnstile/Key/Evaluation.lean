import Turnstile.Key.Expression

/-!
# Evaluation of key expressions

A variable names an argument; by its position, all arguments at once, or the operation
itself where no argument has the name. The key is the terms' values one after another.
-/

namespace Turnstile.Key

/-- What variables refer to. -/
structure Scope where
  operation : String
  arguments : List Argument

/-- The position that a name like `p0` or `a12` stands for. -/
def position? (name : String) : Option Nat :=
  match name.toList with
  | c :: digits =>
    if (c = 'p' ∨ c = 'a') ∧ ¬digits.isEmpty ∧ digits.all Char.isDigit then
      let n := Expression.decimal digits
      if n < UInt64.size then some n else none
    else none
  | [] => none

namespace Scope

variable (scope : Scope)

/-- The value of a variable. -/
def root (name : String) : Except KeyError Json.Value :=
  match scope.arguments.find? (·.name = name) with
  | some argument => argument.value
  | none =>
    match position? name with
    | some n =>
      match scope.arguments[n]? with
      | some argument => argument.value
      | none => .error (.undefinedVariable name)
    | none =>
      if name = "method" then .ok (.string scope.operation)
      else if name = "args" then do return .array (← scope.arguments.mapM Argument.value)
      else .error (.undefinedVariable name)

end Scope

/-- An accessor as paths show it. -/
def Accessor.render : Accessor → String
  | .field name => "." ++ name
  | .index n => s!"[{n}]"

/-- The part of a value that an accessor leads to; `trail` is the path to that part. -/
def Accessor.follow (trail : String) (v : Json.Value) : Accessor → Except KeyError Json.Value
  | .field name =>
    match v.member? name with
    | some part => .ok part
    | none => .error (.missingField trail)
  | .index n =>
    match v with
    | .array items =>
      match items[n]? with
      | some item => .ok item
      | none => .error (.indexOutOfBounds trail items.length)
    | _ => .error (.missingField trail)

/-- The part of a value at the end of a path; `trail` is the path so far. -/
def followPath (trail : String) (v : Json.Value) : List Accessor → Except KeyError Json.Value
  | [] => .ok v
  | accessor :: more => do
    let trail := trail ++ accessor.render
    followPath trail (← accessor.follow trail v) more

/-- The value of a term. -/
def Term.value (scope : Scope) : Term → Except KeyError Json.Value
  | .text s => .ok (.string s)
  | .integer n => .ok (.ofInt n.toInt)
  | .variable name path => do followPath ("#" ++ name) (← scope.root name) path

/-- The key of a list of terms. -/
def evaluateTerms (scope : Scope) : List Term → Except KeyError (List Char)
  | [] => .ok []
  | term :: more => do
    let head := segment (← term.value scope)
    return head ++ (← evaluateTerms scope more)

/-- The key that an expression gives for a call. -/
def Expression.evaluate (expression : Expression) (scope : Scope) : Except KeyError String := do
  return String.ofList (← evaluateTerms scope expression.terms)

end Turnstile.Key
