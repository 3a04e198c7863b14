import Calculator.Grammar.Actions

/-!
# Logged actions

`Actions.logged` does what the given actions do and keeps a log of the names looked up and of the
operators applied, in order.
-/

namespace Calculator.Grammar

inductive Event where
  | lookedUp (name : Text)
  | applied (op : Operator) (offset : Nat)
deriving DecidableEq, Repr

/-- The names that are looked up. -/
def lookups : List Event → List Text
  | [] => []
  | .lookedUp name :: rest => name :: lookups rest
  | .applied .. :: rest => lookups rest

/-- The names among some tokens. -/
def namesOf (passed : List Lexeme) : List Text :=
  (passed.filter (·.kind = .name)).map Lexeme.text

variable {σ β : Type}

/-- The log is kept latest first. -/
def Actions.logged (A : Actions σ β) : Actions (σ × List Event) β where
  number := A.number
  name t s :=
    match A.name t s.1 with
    | (v, next) => (v, next, .lookedUp t :: s.2)
  isVariable := A.isVariable
  apply op offset operands s :=
    match A.apply op offset operands s.1 with
    | (v, next) => (v, next, .applied op offset :: s.2)

end Calculator.Grammar
