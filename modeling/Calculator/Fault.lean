import Calculator.Text.Quoted

/-!
# Faults and errors

A `Fault` is what can go wrong in an evaluation, and an `Error` is a fault with the offset of its
cause.
-/

namespace Calculator

inductive Fault where
  /-- Neither a number nor a name where an operand must stand. -/
  | expectedOperand (found : Text)
  | unclosedParenthesis (found : Text)
  /-- A complete expression is followed by neither a separator nor the end. -/
  | unexpectedCharacter (found : Text)
  | invalidNumber (token : Text)
  /-- The operator writes to a constant or to a computed value. -/
  | immutableBinding (operator : Text)
  | invalidArity (operator : Text) (expected received : Nat)
deriving DecidableEq, Repr

inductive FaultKind where
  | syntactic
  | immutableBinding
  | arity
deriving DecidableEq, Repr

namespace Fault

def kind : Fault → FaultKind
  | expectedOperand _ | unclosedParenthesis _ | unexpectedCharacter _ | invalidNumber _ =>
    .syntactic
  | immutableBinding _ => .immutableBinding
  | invalidArity .. => .arity

def name : Fault → Text
  | expectedOperand _ => "ExpectedOperand".toList
  | unclosedParenthesis _ => "UnclosedParenthesis".toList
  | unexpectedCharacter _ => "UnexpectedCharacter".toList
  | invalidNumber _ => "NumberParseError".toList
  | immutableBinding _ => "ImmutableBinding".toList
  | invalidArity .. => "InvalidArity".toList

def message : Fault → Text
  | expectedOperand found => "expected number or identifier, found ".toList ++ found
  | unclosedParenthesis found => "expected closing parenthesis, found ".toList ++ found
  | unexpectedCharacter found => "unexpected ".toList ++ found
  | invalidNumber token => "error parsing number: ".toList ++ Text.quote token
  | immutableBinding operator =>
    "cannot apply ".toList ++ Text.quote operator ++ " to an immutable binding".toList
  | invalidArity operator expected received =>
    "operator ".toList ++ Text.quote operator ++ " takes ".toList ++ Nat.toDigits 10 expected ++
      " operands, received ".toList ++ Nat.toDigits 10 received

/-- What the author of the text may have meant. -/
def tip? : Fault → Option Text
  | expectedOperand found => some ("Expected a number or identifier, found ".toList ++ found)
  | unclosedParenthesis found =>
    some ("Expected `)`, found ".toList ++ found ++
      ", did you forget to close a parenthesis?".toList)
  | unexpectedCharacter found =>
    some ("Unexpected ".toList ++ found ++ ", did you miss a semicolon or an operator?".toList)
  | invalidNumber token => some ("Invalid number: `".toList ++ token ++ ['`'])
  | immutableBinding operator =>
    some ("The left side of `".toList ++ operator ++
      "` must be a variable, not a constant or computed value".toList)
  | invalidArity .. => none

end Fault

structure Error where
  fault : Fault
  offset : Nat
deriving DecidableEq, Repr

def Error.message (e : Error) : Text :=
  e.fault.message ++ " at offset ".toList ++ Nat.toDigits 10 e.offset

end Calculator
