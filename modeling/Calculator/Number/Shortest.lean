import Calculator.Number.Decimal

/-!
# Shortest decimals

`Decimal.shortest` is the decimal with the fewest digits that reads back as a given double, and of
those the nearest to it. `formatNumber` writes it for people.
-/

namespace Calculator

namespace Decimal

/-- The exponent of the first digit of a positive number of units. The least double is above
`10 ^ -324`, so that the scaled number below is not zero. -/
def leadingExponent (units : Nat) : Int :=
  (Nat.toDigits 10 ((units * Nat.pow 10 324) >>> Binary64.unitBits)).length - 325

/-- The decimals with exponent `e` on the two sides of a number of units, the nearer one first and
of two equally near ones the greater. -/
def neighbours (units : Nat) (e : Int) : List Decimal :=
  let num := units * Nat.pow 10 (-e).toNat
  let den := Nat.pow 10 e.toNat <<< Binary64.unitBits
  let below := num / den
  let rest := num % den
  if rest = 0 then [⟨below, e⟩]
  else if 2 * rest < den then [⟨below, e⟩, ⟨below + 1, e⟩]
  else [⟨below + 1, e⟩, ⟨below, e⟩]

def exactly (units : Nat) : Decimal :=
  ⟨units * Nat.pow 5 Binary64.unitBits, -Binary64.unitBits⟩

/-- The first decimal that reads back, among the power of ten above the value and the neighbours of
one digit, of two, and so on. Seventeen digits are enough for every double. -/
def shortest (code : Nat) : Decimal :=
  let units := Binary64.units code
  let above := leadingExponent units + 1
  let candidates := (List.range 18).flatMap fun (n : Nat) => neighbours units (above - n)
  (candidates.find? (·.code = code)).getD (exactly units)

end Decimal

/-- The shortest decimal without an exponent, with a minus sign for every negative value and also
for negative zero. -/
def formatNumber (v : Float) : Text :=
  match Binary64.exact v with
  | .nan => "NaN".toList
  | .infinite negative => sign negative ++ "Infinity".toList
  | .finite negative 0 => sign negative ++ ['0']
  | .finite negative _ =>
    sign negative ++ (Decimal.shortest (Binary64.code v)).positional
where
  sign (negative : Bool) : Text := if negative then ['-'] else []

end Calculator
