import Calculator.Operator.Level
import Calculator.Text.Basic

/-!
# Operators

The operators of the language and their table: symbol, number of operands, grouping and place.
-/

namespace Calculator

inductive Associativity where
  | left
  | right
deriving DecidableEq, Repr

inductive Placement where
  | beforeOperand
  /-- Directly behind a variable. -/
  | afterVariable
  /-- Behind an operand of its level. -/
  | atLevel (level : Level)
deriving DecidableEq, Repr

inductive Operator where
  | comma
  | assign
  | addAssign
  | subAssign
  | mulAssign
  | divAssign
  | remAssign
  | powAssign
  | shlAssign
  | shrAssign
  | ushrAssign
  | bitAndAssign
  | bitXorAssign
  | bitOrAssign
  | or
  | and
  | bitOr
  | bitXor
  | bitAnd
  | equals
  | strictEquals
  | notEquals
  | strictNotEquals
  | less
  | lessEquals
  | greater
  | greaterEquals
  | shl
  | shr
  | ushr
  | add
  | sub
  | mul
  | div
  | rem
  | pow
  | factorial
  | preIncrement
  | preDecrement
  | plus
  | negate
  | not
  | bitNot
  | postIncrement
  | postDecrement
deriving DecidableEq, Repr

namespace Operator

/-- In the order of the table below. -/
def all : List Operator :=
  [comma, assign, addAssign, subAssign, mulAssign, divAssign, remAssign, powAssign, shlAssign,
    shrAssign, ushrAssign, bitAndAssign, bitXorAssign, bitOrAssign, or, and, bitOr, bitXor, bitAnd,
    equals, strictEquals, notEquals, strictNotEquals, less, lessEquals, greater, greaterEquals, shl,
    shr, ushr, add, sub, mul, div, rem, pow, factorial, preIncrement, preDecrement, plus, negate,
    not, bitNot, postIncrement, postDecrement]

theorem mem_all (op : Operator) : op ∈ all := by
  cases op <;> decide

structure Info where
  symbol : Text
  arity : Nat
  associativity : Associativity
  placement : Placement
deriving DecidableEq, Repr

def info : Operator → Info
  | comma => ⟨[','], 2, .left, .atLevel .comma⟩
  | assign => ⟨['='], 2, .right, .atLevel .assignment⟩
  | addAssign => ⟨['+', '='], 2, .right, .atLevel .assignment⟩
  | subAssign => ⟨['-', '='], 2, .right, .atLevel .assignment⟩
  | mulAssign => ⟨['*', '='], 2, .right, .atLevel .assignment⟩
  | divAssign => ⟨['/', '='], 2, .right, .atLevel .assignment⟩
  | remAssign => ⟨['%', '='], 2, .right, .atLevel .assignment⟩
  | powAssign => ⟨['*', '*', '='], 2, .right, .atLevel .assignment⟩
  | shlAssign => ⟨['<', '<', '='], 2, .right, .atLevel .assignment⟩
  | shrAssign => ⟨['>', '>', '='], 2, .right, .atLevel .assignment⟩
  | ushrAssign => ⟨['>', '>', '>', '='], 2, .right, .atLevel .assignment⟩
  | bitAndAssign => ⟨['&', '='], 2, .right, .atLevel .assignment⟩
  | bitXorAssign => ⟨['^', '='], 2, .right, .atLevel .assignment⟩
  | bitOrAssign => ⟨['|', '='], 2, .right, .atLevel .assignment⟩
  | or => ⟨['|', '|'], 2, .left, .atLevel .logicalOr⟩
  | and => ⟨['&', '&'], 2, .left, .atLevel .logicalAnd⟩
  | bitOr => ⟨['|'], 2, .left, .atLevel .bitwiseOr⟩
  | bitXor => ⟨['^'], 2, .left, .atLevel .bitwiseXor⟩
  | bitAnd => ⟨['&'], 2, .left, .atLevel .bitwiseAnd⟩
  | equals => ⟨['=', '='], 2, .left, .atLevel .equality⟩
  | strictEquals => ⟨['=', '=', '='], 2, .left, .atLevel .equality⟩
  | notEquals => ⟨['!', '='], 2, .left, .atLevel .equality⟩
  | strictNotEquals => ⟨['!', '=', '='], 2, .left, .atLevel .equality⟩
  | less => ⟨['<'], 2, .left, .atLevel .relational⟩
  | lessEquals => ⟨['<', '='], 2, .left, .atLevel .relational⟩
  | greater => ⟨['>'], 2, .left, .atLevel .relational⟩
  | greaterEquals => ⟨['>', '='], 2, .left, .atLevel .relational⟩
  | shl => ⟨['<', '<'], 2, .left, .atLevel .shift⟩
  | shr => ⟨['>', '>'], 2, .left, .atLevel .shift⟩
  | ushr => ⟨['>', '>', '>'], 2, .left, .atLevel .shift⟩
  | add => ⟨['+'], 2, .left, .atLevel .additive⟩
  | sub => ⟨['-'], 2, .left, .atLevel .additive⟩
  | mul => ⟨['*'], 2, .left, .atLevel .multiplicative⟩
  | div => ⟨['/'], 2, .left, .atLevel .multiplicative⟩
  | rem => ⟨['%'], 2, .left, .atLevel .multiplicative⟩
  | pow => ⟨['*', '*'], 2, .right, .atLevel .exponent⟩
  | factorial => ⟨['!'], 1, .left, .atLevel .factorial⟩
  | preIncrement => ⟨['+', '+'], 1, .right, .beforeOperand⟩
  | preDecrement => ⟨['-', '-'], 1, .right, .beforeOperand⟩
  | plus => ⟨['+'], 1, .right, .beforeOperand⟩
  | negate => ⟨['-'], 1, .right, .beforeOperand⟩
  | not => ⟨['!'], 1, .right, .beforeOperand⟩
  | bitNot => ⟨['~'], 1, .right, .beforeOperand⟩
  | postIncrement => ⟨['+', '+'], 1, .left, .afterVariable⟩
  | postDecrement => ⟨['-', '-'], 1, .left, .afterVariable⟩

def symbol (op : Operator) : Text :=
  op.info.symbol

def arity (op : Operator) : Nat :=
  op.info.arity

def associativity (op : Operator) : Associativity :=
  op.info.associativity

def placement (op : Operator) : Placement :=
  op.info.placement

def level? (op : Operator) : Option Level :=
  match op.placement with
  | .atLevel level => some level
  | _ => none

/-- The operator that a compound assignment applies before it assigns. -/
def compoundBase? : Operator → Option Operator
  | addAssign => some add
  | subAssign => some sub
  | mulAssign => some mul
  | divAssign => some div
  | remAssign => some rem
  | powAssign => some pow
  | shlAssign => some shl
  | shrAssign => some shr
  | ushrAssign => some ushr
  | bitAndAssign => some bitAnd
  | bitXorAssign => some bitXor
  | bitOrAssign => some bitOr
  | _ => none

/-! ### Operators by symbol -/

def leveled : List Operator :=
  all.filter (·.level?.isSome)

def beforeOperand : List Operator :=
  all.filter (·.placement = .beforeOperand)

def afterVariable : List Operator :=
  all.filter (·.placement = .afterVariable)

def find? (ops : List Operator) (symbol : Text) : Option Operator :=
  ops.find? (·.symbol = symbol)

def atLevel? (level : Level) (symbol : Text) : Option Operator :=
  (find? leveled symbol).filter (·.level? = some level)

/-- Two operators in the same kind of place have different symbols. -/
theorem nodup_symbols :
    (leveled.map symbol).Nodup ∧ (beforeOperand.map symbol).Nodup ∧
      (afterVariable.map symbol).Nodup := by
  decide

end Operator

end Calculator
