import Calculator.Number.Arithmetic

/-!
# 32-bit words

The bitwise operators and the factorial see a double as a 32-bit word: its whole part modulo
`2 ^ 32`, and `0` for what is not finite.
-/

namespace Calculator

abbrev Word := BitVec 32

namespace Word

def ofFloat (v : Float) : Word :=
  if v.isFinite then (remainderEuclid (wholePart v) 4294967296.0).toUInt32.toBitVec else 0

def toFloat (w : Word) : Float :=
  Binary64.ofInt w.toInt

def toFloatUnsigned (w : Word) : Float :=
  Binary64.ofInt w.toNat

end Word

def toInt32 (v : Float) : Int :=
  (Word.ofFloat v).toInt

def toUInt32 (v : Float) : Nat :=
  (Word.ofFloat v).toNat

/-- A shift moves by at most 31 places. -/
def shiftCount (v : Float) : Nat :=
  toUInt32 v % 32

end Calculator
