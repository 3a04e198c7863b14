import Calculator.Number.Binary64
import Calculator.Text.Basic

/-!
# Decimal numbers

A `Decimal` is a whole number times a power of ten. `Decimal.read?` reads a numeral,
`Decimal.toFloat` is the double nearest to a decimal, ties to even, and `Decimal.positional`
writes it without an exponent.
-/

namespace Calculator

/-- The number `digits * 10 ^ exponent`. -/
structure Decimal where
  digits : Nat
  exponent : Int
deriving DecidableEq, Repr

namespace Decimal

/-- Powers of ten from here on exceed every finite double. -/
def hugeExponent : Nat := 400

def code (d : Decimal) : Nat :=
  if d.digits = 0 then 0
  else
    match d.exponent with
    | .ofNat n =>
      if hugeExponent ≤ n then Binary64.infinityCode
      else Binary64.roundRatio ((d.digits * Nat.pow 10 n) <<< Binary64.unitBits) 1
    | .negSucc n => Binary64.roundRatio (d.digits <<< Binary64.unitBits) (Nat.pow 10 (n + 1))

def toFloat (d : Decimal) : Float :=
  Binary64.ofCode false d.code

/-! ### Reading -/

def ofDigits (t : Text) : Nat :=
  t.foldl (fun n c => 10 * n + (c.toNat - '0'.toNat)) 0

/-- Reads digits with an optional point, at least one digit, and an optional exponent, which is an
`e` or `E` with at least one digit behind it and no sign. -/
def read? (t : Text) : Option Decimal :=
  let (significand, marked) := t.span fun c => c ≠ 'e' && c ≠ 'E'
  let (whole, pointed) := significand.span (· ≠ '.')
  let fraction := pointed.drop 1
  let scale := marked.drop 1
  if (whole ++ fraction).isEmpty || !(whole ++ fraction).all Char.isDigit then none
  else if !marked.isEmpty && scale.isEmpty || !scale.all Char.isDigit then none
  else some ⟨ofDigits (whole ++ fraction), (ofDigits scale : Int) - fraction.length⟩

/-! ### Writing -/

/-- The decimal without an exponent: zeros fill the places up to the point, and a whole number has
no point. -/
def positional (d : Decimal) : Text :=
  let digits := Nat.toDigits 10 d.digits
  match d.exponent with
  | .ofNat n => digits ++ List.replicate n '0'
  | .negSucc n =>
    let places := n + 1
    let padded := List.replicate (places + 1 - digits.length) '0' ++ digits
    padded.take (padded.length - places) ++ '.' :: padded.drop (padded.length - places)

end Decimal

end Calculator
