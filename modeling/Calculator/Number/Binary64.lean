/-!
# Exact values of doubles

A finite double is a sign and a whole number of units, one unit being `2 ^ -1074`, the least
positive double. `Binary64.exact` reads both from the bit pattern and `Binary64.ofCode` writes a
bit pattern. The bit patterns of the non-negative doubles are numbered by their codes, in the
order of their values, and `Binary64.roundRatio` gives the code nearest to a ratio, ties to even.
-/

namespace Calculator

inductive Exact where
  | nan
  | infinite (negative : Bool)
  /-- A number of units of `2 ^ -1074`; zero has both signs. -/
  | finite (negative : Bool) (units : Nat)
deriving DecidableEq, Repr

namespace Binary64

/-- The exponent of one unit, negated. -/
def unitBits : Nat := 1074

def fractionBits : Nat := 52

/-- The number of fractions of one exponent, `2 ^ 52`. -/
def fractionCount : Nat := 0x0010000000000000

/-- The code of infinity, above the codes of all finite doubles. -/
def infinityCode : Nat := 0x7FF0000000000000

/-- The number of codes, `2 ^ 63`; a negative double adds it to its code. -/
def codeCount : Nat := 0x8000000000000000

def units (code : Nat) : Nat :=
  let exponent := code / fractionCount
  let fraction := code % fractionCount
  if exponent = 0 then fraction else (fractionCount + fraction) <<< (exponent - 1)

/-- The whole number nearest to `num / den`, of two the even one. -/
def nearestEven (num den : Nat) : Nat :=
  let whole := num / den
  let twice := 2 * (num % den)
  if twice < den || (twice == den && whole % 2 == 0) then whole else whole + 1

/-- The bits that a number of whole units loses when 53 leading bits are kept. -/
def droppedBits (whole : Nat) : Nat :=
  whole.log2 - fractionBits

/-- The code of the double nearest to `num / den` units. A significand rounded up to a power of two
carries into the exponent, since the codes of one exponent are followed by those of the next. -/
def roundRatio (num den : Nat) : Nat :=
  let dropped := droppedBits (num / den)
  min (dropped * fractionCount + nearestEven num (den <<< dropped)) infinityCode

def ofCode (negative : Bool) (code : Nat) : Float :=
  Float.ofBits (UInt64.ofNat (if negative then codeCount + code else code))

def ofUnits (negative : Bool) (units : Nat) : Float :=
  ofCode negative (roundRatio units 1)

def ofInt (i : Int) : Float :=
  ofUnits (decide (i < 0)) (i.natAbs <<< unitBits)

def infinity : Float :=
  ofCode false infinityCode

/-- The bit pattern without its sign. -/
def code (v : Float) : Nat :=
  v.toBits.toNat % codeCount

def isNegative (v : Float) : Bool :=
  decide (codeCount ≤ v.toBits.toNat)

def exact (v : Float) : Exact :=
  if code v < infinityCode then .finite (isNegative v) (units (code v))
  else if code v = infinityCode then .infinite (isNegative v)
  else .nan

end Binary64

/-- The whole part, toward zero; `0` for what is not finite. -/
def Exact.truncate : Exact → Int
  | .finite negative units =>
    let whole : Int := units >>> Binary64.unitBits
    if negative then -whole else whole
  | _ => 0

end Calculator
