import Calculator.Number.Word

/-!
# Factorials

`Factorials` keeps the factorials computed so far. `Factorials.factorial` extends it as far as its
argument needs.
-/

namespace Calculator

structure Factorials where
  values : Array Float

namespace Factorials

def initial : Factorials := ⟨#[1.0]⟩

/-- The greatest number whose factorial is finite. -/
def maxFinite : Int := 170

def size (f : Factorials) : Nat :=
  f.values.size

/-- Adds the next `n` factorials, each the product of its number and the one before. -/
def extend (f : Factorials) : Nat → Factorials
  | 0 => f
  | n + 1 =>
    extend ⟨f.values.push (Binary64.ofInt f.values.size * f.values.back?.getD 1.0)⟩ n

/-- The factorial of the 32-bit word of `v`. -/
def factorial (f : Factorials) (v : Float) : Float × Factorials :=
  let n := toInt32 v
  if n < 1 then (1.0, f)
  else if maxFinite < n then (Binary64.infinity, f)
  else
    let f := f.extend (n.toNat + 1 - f.size)
    (f.values[n.toNat]?.getD 1.0, f)

end Factorials

end Calculator
