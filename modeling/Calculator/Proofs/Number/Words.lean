import Calculator.Number.Value
import Calculator.Number.Word
import Calculator.Proofs.Number.Whole
import Mathlib.Data.Int.Bitwise

/-!
# Words are whole parts modulo `2 ^ 32`

The word of a double is its whole part modulo `2 ^ 32`, whatever its size and its sign
(`Word.toNat_ofFloat`), and a word is the double of the number it stands for, signed or not. On
words as signed numbers the bitwise operations are those of the two's complement.
-/

namespace Calculator

open Binary64

theorem exact_modulus : exact 4294967296.0 = .finite false (0x100000000 <<< unitBits) := by
  decide +kernel

theorem abs_modulus : (4294967296.0 : Float).abs = 4294967296.0 := by
  decide +kernel

theorem truncate_whole (negative : Bool) (n : Nat) :
    (Exact.finite negative (n <<< unitBits)).truncate = if negative then -(n : Int) else n := by
  show (if negative then _ else _) = _
  rw [Nat.shiftLeft_shiftRight]

theorem truncate_wholePart {v : Float} (h : v.isFinite) :
    ∃ negative n, exact (wholePart v) = .finite negative (n <<< unitBits) ∧
      (exact v).truncate = if negative then -(n : Int) else n := by
  obtain ⟨negative, u, value⟩ := isFinite_iff.mp h
  exact ⟨negative, u >>> unitBits, exact_wholePart value, by rw [value]; rfl⟩

/-- The remainder is never rounded and never negative. -/
theorem truncate_remainderEuclid {a : Float} {negative : Bool} {n : Nat}
    (h : exact a = .finite negative (n <<< unitBits)) :
    (remainderEuclid a 4294967296.0).isFinite ∧
      (exact (remainderEuclid a 4294967296.0)).truncate =
        (if negative then -(n : Int) else n) % 0x100000000 := by
  have rest := exact_remainder h exact_modulus (by decide) (by decide)
  have below := Nat.mod_lt n (show 0 < 0x100000000 by decide)
  have sign := lt_zero_iff rest
  unfold remainderEuclid
  dsimp only
  split
  case isTrue less =>
    obtain ⟨rfl, nonzero⟩ := sign.mp less
    have present : n % 0x100000000 ≠ 0 := by
      intro zero
      rw [zero, Nat.zero_shiftLeft] at nonzero
      exact nonzero rfl
    have sum := exact_add rest exact_modulus present below (by decide)
    rw [abs_modulus]
    refine ⟨isFinite_iff.mpr ⟨_, _, sum⟩, ?_⟩
    rw [sum, truncate_whole, if_neg Bool.false_ne_true, if_pos rfl]
    omega
  case isFalse notLess =>
    refine ⟨isFinite_iff.mpr ⟨_, _, rest⟩, ?_⟩
    rw [rest, truncate_whole]
    cases negative with
    | false =>
      rw [if_neg Bool.false_ne_true, if_neg Bool.false_ne_true]
      omega
    | true =>
      have zero : n % 0x100000000 = 0 := by
        by_contra nonzero
        exact notLess (sign.mpr ⟨rfl, shiftLeft_ne_zero nonzero _⟩)
      rw [if_pos rfl, if_pos rfl]
      omega

theorem truncate_of_not_isFinite {v : Float} (h : ¬ v.isFinite) : (exact v).truncate = 0 := by
  rw [isFinite_iff] at h
  cases value : exact v with
  | nan | infinite s => rfl
  | finite negative u => exact absurd ⟨negative, u, value⟩ h

namespace Word

theorem toNat_ofFloat (v : Float) : ((ofFloat v).toNat : Int) = (exact v).truncate % 0x100000000 := by
  unfold ofFloat
  split
  case isTrue finite =>
    obtain ⟨negative, n, whole, value⟩ := truncate_wholePart finite
    obtain ⟨remains, rest⟩ := truncate_remainderEuclid whole
    have converted := toNat_toUInt32 remains (by omega)
    rw [rest, ← value] at converted
    show ((remainderEuclid (wholePart v) 4294967296.0).toUInt32.toNat : Int) = _
    omega
  case isFalse infinite =>
    rw [truncate_of_not_isFinite infinite]
    rfl

theorem toInt_ofFloat (v : Float) : (ofFloat v).toInt = (exact v).truncate.bmod 0x100000000 := by
  rw [BitVec.toInt_eq_toNat_bmod, toNat_ofFloat]
  exact Int.emod_bmod _ _

theorem isWhole_toFloat (w : Word) : IsWhole w.toFloat w.toInt := by
  have least := BitVec.le_toInt w
  have greatest := BitVec.toInt_lt (x := w)
  refine exact_ofInt ?_
  unfold fractionCount
  omega

theorem isWhole_toFloatUnsigned (w : Word) : IsWhole w.toFloatUnsigned w.toNat := by
  have greatest := w.isLt
  refine exact_ofInt ?_
  unfold fractionCount
  omega

/-! ### Signed numbers by their bits -/

/-- Beyond their leading bits a number that is negative and one that is not differ. -/
theorem exists_testBit_ne (m n : Nat) :
    ∃ k, (Int.ofNat m).testBit k ≠ (Int.negSucc n).testBit k := by
  have left : m < 2 ^ (m + n) :=
    Nat.lt_of_lt_of_le Nat.lt_two_pow_self (Nat.pow_le_pow_right (by decide) (Nat.le_add_right m n))
  have right : n < 2 ^ (m + n) :=
    Nat.lt_of_lt_of_le Nat.lt_two_pow_self (Nat.pow_le_pow_right (by decide) (Nat.le_add_left n m))
  refine ⟨m + n, ?_⟩
  show m.testBit (m + n) ≠ !n.testBit (m + n)
  rw [Nat.testBit_lt_two_pow left, Nat.testBit_lt_two_pow right]
  decide

theorem eq_of_testBit_eq {a b : Int} (h : ∀ k, a.testBit k = b.testBit k) : a = b := by
  cases a with
  | ofNat m =>
    cases b with
    | ofNat n => exact congrArg Int.ofNat (Nat.eq_of_testBit_eq h)
    | negSucc n =>
      obtain ⟨k, differ⟩ := exists_testBit_ne m n
      exact absurd (h k) differ
  | negSucc m =>
    cases b with
    | ofNat n =>
      obtain ⟨k, differ⟩ := exists_testBit_ne n m
      exact absurd (h k).symm differ
    | negSucc n =>
      refine congrArg Int.negSucc (Nat.eq_of_testBit_eq fun k => ?_)
      exact Bool.not_inj (h k)

theorem testBit_toInt (w : Word) (k : Nat) :
    w.toInt.testBit k = if k < 32 then w.getLsbD k else w.msb := by
  have below := w.isLt
  cases sign : w.msb with
  | false =>
    have value : w.toInt = Int.ofNat w.toNat := BitVec.toInt_eq_toNat_of_msb sign
    rw [value]
    show w.getLsbD k = _
    split
    · rfl
    · exact BitVec.getLsbD_of_ge w k (by omega)
  | true =>
    have value : w.toInt = Int.negSucc (~~~w).toNat := by
      rw [BitVec.toInt_eq_msb_cond, if_pos sign, BitVec.toNat_not]
      omega
    rw [value]
    show (!(~~~w).getLsbD k) = _
    rw [BitVec.getLsbD_not]
    split
    case isTrue inside => simp [inside]
    case isFalse outside => simp [outside]

theorem toInt_or (v w : Word) : (v ||| w).toInt = v.toInt.lor w.toInt := by
  refine eq_of_testBit_eq fun k => ?_
  rw [Int.testBit_lor, testBit_toInt, testBit_toInt, testBit_toInt, BitVec.getLsbD_or, BitVec.msb_or]
  split <;> rfl

theorem toInt_xor (v w : Word) : (v ^^^ w).toInt = v.toInt.xor w.toInt := by
  refine eq_of_testBit_eq fun k => ?_
  rw [Int.testBit_lxor, testBit_toInt, testBit_toInt, testBit_toInt, BitVec.getLsbD_xor,
    BitVec.msb_xor]
  split <;> rfl

theorem toInt_and (v w : Word) : (v &&& w).toInt = v.toInt.land w.toInt := by
  refine eq_of_testBit_eq fun k => ?_
  rw [Int.testBit_land, testBit_toInt, testBit_toInt, testBit_toInt, BitVec.getLsbD_and,
    BitVec.msb_and]
  split <;> rfl

theorem toInt_complement (w : Word) : (~~~w).toInt = -w.toInt - 1 := by
  have below := w.isLt
  rw [BitVec.toInt, BitVec.toInt, BitVec.toNat_not]
  split <;> split <;> omega

theorem toInt_shiftLeft (w : Word) (k : Nat) :
    (w <<< k).toInt = (w.toInt * 2 ^ k).bmod 0x100000000 := by
  rw [BitVec.toInt_shiftLeft, Nat.shiftLeft_eq, BitVec.toInt_eq_toNat_bmod w]
  push_cast
  exact Int.bmod_mul_bmod.symm

theorem floor_div_two_pow (i : Int) (k : Nat) : ⌊(i : ℚ) / 2 ^ k⌋ = i >>> k := by
  have quotient := Rat.floor_intCast_div_natCast i (2 ^ k)
  rw [Int.shiftRight_eq_div_pow, ← quotient, Nat.cast_pow, Nat.cast_ofNat]

theorem toInt_shiftRight (w : Word) (k : Nat) :
    (w.sshiftRight k).toInt = ⌊(w.toInt : ℚ) / 2 ^ k⌋ := by
  rw [BitVec.toInt_sshiftRight, floor_div_two_pow]

theorem toNat_shiftRight (w : Word) (k : Nat) :
    ((w >>> k).toNat : Int) = ⌊(w.toNat : ℚ) / 2 ^ k⌋ := by
  rw [BitVec.toNat_ushiftRight]
  exact (floor_div_two_pow w.toNat k).symm

end Word

end Calculator
