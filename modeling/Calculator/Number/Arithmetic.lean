import Calculator.Number.Binary64

/-!
# Arithmetic on doubles

The rules that the hardware operations leave open: truth values, exact remainders, whole parts and
the power.
-/

namespace Calculator

/-- Zero and NaN are false. -/
def isTruthy (v : Float) : Bool :=
  v != 0.0 && !v.isNaN

def ofBool (b : Bool) : Float :=
  if b then 1.0 else 0.0

def notANumber : Float :=
  Float.ofBits 0x7FF8000000000000

/-- What is left of `a` after the whole multiples of `b`, exactly and with the sign of `a`. -/
def remainder (a b : Float) : Float :=
  match Binary64.exact a, Binary64.exact b with
  | .finite negative u, .finite _ v =>
    if v = 0 then notANumber else Binary64.ofUnits negative (u % v)
  | .finite _ _, .infinite _ => a
  | _, _ => notANumber

/-- The remainder that is not negative. -/
def remainderEuclid (a b : Float) : Float :=
  let r := remainder a b
  if r < 0.0 then r + b.abs else r

/-- `v` without its fraction. -/
def wholePart (v : Float) : Float :=
  match Binary64.exact v with
  | .finite negative u =>
    Binary64.ofUnits negative (u >>> Binary64.unitBits <<< Binary64.unitBits)
  | _ => v

/-- `a` to the power `b`; a base of `1` or `-1` has no value at an infinite exponent, and no base
has one at NaN. -/
def power (a b : Float) : Float :=
  if b.isNaN || (a.abs == 1.0 && b.isInf) then notANumber else Float.pow a b

end Calculator
