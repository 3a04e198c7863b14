/-!
# Levels

The fourteen levels of the operators that join or follow operands, from the loosest, the comma, to
the tightest, the factorial. `Level.next?` goes one level tighter.
-/

namespace Calculator

inductive Level where
  | comma
  | assignment
  | logicalOr
  | logicalAnd
  | bitwiseOr
  | bitwiseXor
  | bitwiseAnd
  | equality
  | relational
  | shift
  | additive
  | multiplicative
  | exponent
  | factorial
deriving DecidableEq, Repr

namespace Level

def all : List Level :=
  [.comma, .assignment, .logicalOr, .logicalAnd, .bitwiseOr, .bitwiseXor, .bitwiseAnd, .equality,
    .relational, .shift, .additive, .multiplicative, .exponent, .factorial]

def loosest : Level := .comma

/-- How many levels are looser. -/
def rank : Level → Nat
  | comma => 0
  | assignment => 1
  | logicalOr => 2
  | logicalAnd => 3
  | bitwiseOr => 4
  | bitwiseXor => 5
  | bitwiseAnd => 6
  | equality => 7
  | relational => 8
  | shift => 9
  | additive => 10
  | multiplicative => 11
  | exponent => 12
  | factorial => 13

def next? : Level → Option Level
  | comma => some assignment
  | assignment => some logicalOr
  | logicalOr => some logicalAnd
  | logicalAnd => some bitwiseOr
  | bitwiseOr => some bitwiseXor
  | bitwiseXor => some bitwiseAnd
  | bitwiseAnd => some equality
  | equality => some relational
  | relational => some shift
  | shift => some additive
  | additive => some multiplicative
  | multiplicative => some exponent
  | exponent => some factorial
  | factorial => none

theorem rank_next? {l m : Level} (h : l.next? = some m) : m.rank = l.rank + 1 := by
  cases l <;> simp only [next?, Option.some.injEq, reduceCtorEq] at h <;> subst h <;> rfl

theorem rank_le (l : Level) : l.rank ≤ 13 := by
  cases l <;> decide

instance : Ord Level where
  compare a b := compare a.rank b.rank

end Level

end Calculator
