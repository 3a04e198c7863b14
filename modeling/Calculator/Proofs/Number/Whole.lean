import Calculator.Number.Arithmetic
import Calculator.Proofs.Number.Rounding
import Calculator.Proofs.Number.Unpacked

/-!
# Whole numbers as doubles

A whole number of at most 53 bits is a double of its own (`Binary64.exact_ofUnits`), whether it is
written down, is left over by a division (`exact_remainder`), is what a double has before its point
(`exact_wholePart`) or is a difference of two others (`exact_add`). Nothing is rounded on the way.
-/

namespace Calculator

open Float.Model (Format UnpackedFloat totalExponent)
open Float.Model.UnpackedFloat

theorem shiftLeft_inj {a b k : Nat} (h : a <<< k = b <<< k) : a = b := by
  rw [Nat.shiftLeft_eq, Nat.shiftLeft_eq] at h
  exact Nat.eq_of_mul_eq_mul_right (Nat.two_pow_pos k) h

theorem shiftLeft_lt_iff {a b k : Nat} : a <<< k < b <<< k ↔ a < b := by
  rw [Nat.shiftLeft_eq, Nat.shiftLeft_eq]
  exact Nat.mul_lt_mul_right (Nat.two_pow_pos k)

theorem shiftLeft_ne_zero {a : Nat} (h : a ≠ 0) (k : Nat) : a <<< k ≠ 0 :=
  fun zero => h (shiftLeft_inj (zero.trans (Nat.zero_shiftLeft k).symm))

theorem log2_shiftLeft {a : Nat} (h : a ≠ 0) (k : Nat) : (a <<< k).log2 = a.log2 + k := by
  obtain ⟨least, below⟩ := (Nat.log2_eq_iff h).mp rfl
  rw [Nat.log2_eq_iff (shiftLeft_ne_zero h k), Nat.shiftLeft_eq, Nat.pow_add, Nat.add_right_comm,
    Nat.pow_add]
  exact ⟨Nat.mul_le_mul_right _ least, Nat.mul_lt_mul_of_pos_right below (Nat.two_pow_pos k)⟩

namespace Binary64

theorem shiftRight_exact (m k : Nat) :
    ExtendedMantissa.ofMantissaAndAccuracy (m <<< k) .exact >>> k =
      ExtendedMantissa.ofMantissaAndAccuracy m .exact := by
  induction k generalizing m with
  | zero => rfl
  | succ k ih =>
    show (ExtendedMantissa.ofMantissaAndAccuracy (m <<< (k + 1)) .exact >>> k).shiftRightOne = _
    rw [Nat.add_comm, Nat.shiftLeft_add, ih, Nat.shiftLeft_eq]
    simp [ExtendedMantissa.ofMantissaAndAccuracy, ExtendedMantissa.shiftRightOne]

theorem targetExponent_eq (m : Nat) (e : Int) :
    Format.binary64.targetExponent (totalExponent m e) = max (m.log2 + e - 52) (-1074) := by
  have bits : Format.mantissaBits .binary64 = 53 := rfl
  have least : Format.minExponent .binary64 = -1074 := rfl
  unfold Format.targetExponent totalExponent
  rw [bits, least]
  omega

section Normal

variable {n : Nat} (nonzero : n ≠ 0) (small : n < 2 * fractionCount)

/-- `n` with its leading bit at the place of the implicit one. -/
def aligned (n : Nat) : Nat :=
  n <<< (52 - n.log2)

/-- The code of the double `n`. -/
def wholeCode (n : Nat) : Nat :=
  (1022 + n.log2) * fractionCount + aligned n

include nonzero small

theorem log2_le : n.log2 ≤ 52 := by
  have := (Nat.log2_lt (k := 53) nonzero).mpr small
  omega

theorem aligned_bounds : fractionCount ≤ aligned n ∧ aligned n < 2 * fractionCount := by
  have leading := log2_le nonzero small
  have place : (aligned n).log2 = 52 := by
    rw [aligned, log2_shiftLeft nonzero]
    omega
  exact (Nat.log2_eq_iff (shiftLeft_ne_zero nonzero _)).mp place

theorem wholeCode_parts : wholeCode n / fractionCount = 1023 + n.log2 ∧
    fractionCount + wholeCode n % fractionCount = aligned n := by
  obtain ⟨least, below⟩ := aligned_bounds nonzero small
  unfold wholeCode
  unfold fractionCount at *
  omega

theorem wholeCode_lt : wholeCode n < infinityCode := by
  have leading := log2_le nonzero small
  obtain ⟨least, below⟩ := aligned_bounds nonzero small
  unfold wholeCode infinityCode
  unfold fractionCount at *
  omega

theorem units_wholeCode : units (wholeCode n) = n <<< unitBits := by
  have leading := log2_le nonzero small
  obtain ⟨exponent, mantissa⟩ := wholeCode_parts nonzero small
  unfold units
  rw [exponent, if_neg (by omega), mantissa, aligned, ← Nat.shiftLeft_add,
    show 52 - n.log2 + (1023 + n.log2 - 1) = unitBits by unfold unitBits; omega]

theorem aligned_pos : 0 < aligned n :=
  Nat.lt_of_lt_of_le (by decide) (aligned_bounds nonzero small).1

theorem exponent_wholeCode :
    (unpackExponent (bits (ofCode false (wholeCode n)))).toNat = 1023 + n.log2 := by
  rw [exponent_eq, code_ofCode (Nat.le_of_lt (wholeCode_lt nonzero small))]
  exact (wholeCode_parts nonzero small).1

theorem mantissa_wholeCode :
    fractionCount + (unpackMantissa (bits (ofCode false (wholeCode n)))).toNat = aligned n := by
  rw [mantissa_eq, code_ofCode (Nat.le_of_lt (wholeCode_lt nonzero small))]
  exact (wholeCode_parts nonzero small).2

theorem unpack_wholeCode : (ofCode false (wholeCode n)).toModel.unpack =
    .finite .positive (aligned n) (n.log2 - 52) (aligned_pos nonzero small) := by
  have leading := log2_le nonzero small
  have exponent := exponent_wholeCode nonzero small
  have sign : Sign.ofBitVec (unpackSign (bits (ofCode false (wholeCode n)))) = .positive := by
    have negative := isNegative_eq (ofCode false (wholeCode n))
    rw [isNegative_ofCode (Nat.le_of_lt (wholeCode_lt nonzero small))] at negative
    revert negative
    cases Sign.ofBitVec (unpackSign (bits (ofCode false (wholeCode n)))) <;> simp [isNegativeSign]
  have place : ((1023 + n.log2 : Nat) : Int) - 1075 = n.log2 - 52 := by omega
  rw [unpack_eq, unpack_of_normal (by rw [exponent]; omega) (by rw [exponent]; omega)]
  refine (finite.injEq ..).mpr ⟨sign, mantissa_wholeCode nonzero small, ?_⟩
  rw [exponent]
  exact place

theorem targetExponent_aligned (k : Nat) {e : Int} (he : e + k = n.log2 - 52) :
    Format.binary64.targetExponent (totalExponent (aligned n <<< k) e) = n.log2 - 52 := by
  have leading := log2_le nonzero small
  have place : (aligned n <<< k).log2 = 52 + k := by
    rw [aligned, log2_shiftLeft (shiftLeft_ne_zero nonzero _), log2_shiftLeft nonzero]
    omega
  rw [targetExponent_eq, place]
  omega

theorem roundWithAccuracy_aligned (s : Sign) (k : Nat) {e : Int} (he : e + k = n.log2 - 52) :
    roundWithAccuracy .binary64 s (aligned n <<< k) e .exact =
      .finite s (aligned n) (n.log2 - 52) (aligned_pos nonzero small) := by
  have first : shiftToTargetExponent .binary64 (aligned n <<< k) e .exact =
      (ExtendedMantissa.ofMantissaAndAccuracy (aligned n) .exact, (n.log2 : Int) - 52) := by
    have places : ((n.log2 : Int) - 52 - e).toNat = k := by omega
    unfold shiftToTargetExponent shiftToExponent
    simp only [targetExponent_aligned nonzero small k he, places, shiftRight_exact, he]
  have second : shiftToTargetExponent .binary64 (aligned n) (n.log2 - 52) .exact =
      (ExtendedMantissa.ofMantissaAndAccuracy (aligned n) .exact, (n.log2 : Int) - 52) := by
    have target := targetExponent_aligned nonzero small 0 (Int.add_zero _)
    rw [Nat.shiftLeft_zero] at target
    unfold shiftToTargetExponent shiftToExponent
    simp only [target, Int.sub_self]
    exact Prod.ext rfl (Int.add_zero _)
  have positive := Nat.ne_of_gt (aligned_pos nonzero small)
  have rounded : (ExtendedMantissa.ofMantissaAndAccuracy (aligned n) .exact).roundedMantissa =
      aligned n := rfl
  unfold roundWithAccuracy
  rw [first]
  dsimp only
  rw [rounded, second]
  exact dif_neg positive

theorem round_whole (s : Sign) {m : Nat} {e : Int} (above : -1074 ≤ e)
    (value : m <<< (e + 1074).toNat = n <<< 1074) :
    round .binary64 s m e = .finite s (aligned n) (n.log2 - 52) (aligned_pos nonzero small) := by
  have present : m ≠ 0 := by
    rintro rfl
    rw [Nat.zero_shiftLeft] at value
    exact shiftLeft_ne_zero nonzero _ value.symm
  have leading : m.log2 + (e + 1074).toNat = n.log2 + 1074 := by
    rw [← log2_shiftLeft present, value, log2_shiftLeft nonzero]
  have small := log2_le nonzero small
  have target : Format.binary64.targetExponent (totalExponent m e) = (n.log2 : Int) - 52 := by
    rw [targetExponent_eq]
    omega
  have shifted : m <<< (e - ((n.log2 : Int) - 52)).toNat =
      aligned n <<< ((n.log2 : Int) - 52 - e).toNat := by
    apply shiftLeft_inj (k := (min e ((n.log2 : Int) - 52) + 1074).toNat)
    rw [aligned, ← Nat.shiftLeft_add, ← Nat.shiftLeft_add, ← Nat.shiftLeft_add]
    refine Eq.trans ?_ (value.trans ?_)
    · congr 1
      omega
    · congr 1
      omega
  unfold UnpackedFloat.round decreaseExponent
  dsimp only
  rw [target, shifted]
  exact roundWithAccuracy_aligned nonzero ‹_› s _ (by omega)

end Normal

/-! ### Exact results -/

theorem ofUnits_units {c : Nat} (h : c ≤ infinityCode) (negative : Bool) :
    ofUnits negative (units c) = ofCode negative c := by
  have rounded := roundRatio_units h Nat.one_pos
  rw [Nat.mul_one] at rounded
  rw [ofUnits, rounded]

theorem exists_code {n : Nat} (small : n < 2 * fractionCount) :
    ∃ c, c < infinityCode ∧ units c = n <<< unitBits := by
  by_cases zero : n = 0
  · exact ⟨0, by decide, by rw [zero, Nat.zero_shiftLeft]; rfl⟩
  · exact ⟨wholeCode n, wholeCode_lt zero small, units_wholeCode zero small⟩

theorem exact_ofUnits {n : Nat} (small : n < 2 * fractionCount) (negative : Bool) :
    exact (ofUnits negative (n <<< unitBits)) = .finite negative (n <<< unitBits) := by
  obtain ⟨c, below, value⟩ := exists_code small
  rw [← value, ofUnits_units (Nat.le_of_lt below), exact_ofCode below]

theorem exact_ofInt {i : Int} (small : i.natAbs < 2 * fractionCount) :
    exact (ofInt i) = .finite (decide (i < 0)) (i.natAbs <<< unitBits) :=
  exact_ofUnits small _

theorem exact_remainder {a b : Float} {negative sign : Bool} {n k : Nat}
    (ha : exact a = .finite negative (n <<< unitBits)) (hb : exact b = .finite sign (k <<< unitBits))
    (nonzero : k ≠ 0) (small : k < 2 * fractionCount) :
    exact (remainder a b) = .finite negative ((n % k) <<< unitBits) := by
  have below := Nat.mod_lt n (Nat.pos_of_ne_zero nonzero)
  have rest : n <<< unitBits % k <<< unitBits = (n % k) <<< unitBits := by
    rw [Nat.shiftLeft_eq, Nat.shiftLeft_eq, Nat.shiftLeft_eq, Nat.mul_mod_mul_right]
  unfold remainder
  simp only [ha, hb, if_neg (shiftLeft_ne_zero nonzero unitBits), rest]
  exact exact_ofUnits (Nat.lt_trans below small) negative

theorem code_of_exact {v : Float} {negative : Bool} {u : Nat}
    (h : exact v = .finite negative u) :
    code v < infinityCode ∧ isNegative v = negative ∧ units (code v) = u := by
  unfold exact at h
  split at h
  case isTrue below =>
    cases h
    exact ⟨below, rfl, rfl⟩
  case isFalse => split at h <;> cases h

/-- Where there is a fraction to cut off, what is left is small. -/
theorem units_whole_or_small (c : Nat) :
    units c >>> unitBits <<< unitBits = units c ∨ units c >>> unitBits < 2 * fractionCount := by
  have fraction := Nat.mod_lt c (show 0 < fractionCount by decide)
  unfold units
  dsimp only
  split
  · exact .inr (Nat.lt_of_le_of_lt (Nat.shiftRight_le _ _) (by omega))
  rcases Nat.le_total unitBits (c / fractionCount - 1) with whole | cut
  · obtain ⟨j, hj⟩ := Nat.exists_eq_add_of_le' whole
    left
    rw [hj, Nat.shiftLeft_add, Nat.shiftLeft_shiftRight]
  · obtain ⟨j, hj⟩ := Nat.exists_eq_add_of_le cut
    right
    rw [hj, shiftLeft_shiftRight_add]
    exact Nat.lt_of_le_of_lt (Nat.shiftRight_le _ _) (by omega)

theorem exact_wholePart {v : Float} {negative : Bool} {u : Nat}
    (h : exact v = .finite negative u) :
    exact (wholePart v) = .finite negative (u >>> unitBits <<< unitBits) := by
  obtain ⟨below, sign, rfl⟩ := code_of_exact h
  unfold wholePart
  simp only [h]
  rcases units_whole_or_small (code v) with whole | small
  · rw [whole, ofUnits_units (Nat.le_of_lt below), exact_ofCode below]
  · exact exact_ofUnits small negative

theorem unpack_of_exact {v : Float} {negative : Bool} {u : Nat}
    (h : exact v = .finite negative u) (nonzero : u ≠ 0) :
    ∃ s m e pos, v.toModel.unpack = .finite s m e pos ∧ isNegativeSign s = negative ∧
      m <<< (e + 1074).toNat = u ∧ -1074 ≤ e := by
  rw [exact_eq] at h
  cases unpacked : v.toModel.unpack with
  | notANumber | infinity s =>
    rw [unpacked] at h
    cases h
  | zero s =>
    rw [unpacked] at h
    cases h
    exact absurd rfl nonzero
  | finite s m e pos =>
    rw [unpacked] at h
    cases h
    exact ⟨s, m, e, pos, rfl, rfl, rfl, le_of_unpack v unpacked⟩

/-- The difference of two whole numbers. -/
theorem exact_add {a b : Float} {n k : Nat} (ha : exact a = .finite true (n <<< unitBits))
    (hb : exact b = .finite false (k <<< unitBits)) (nonzero : n ≠ 0) (less : n < k)
    (small : k < 2 * fractionCount) :
    exact (a + b) = .finite false ((k - n) <<< unitBits) := by
  have positive : k - n ≠ 0 := by omega
  have bound : k - n < 2 * fractionCount := by omega
  obtain ⟨s₁, m₁, e₁, _, unpacked₁, negative, value₁, above₁⟩ :=
    unpack_of_exact ha (shiftLeft_ne_zero nonzero _)
  obtain ⟨s₂, m₂, e₂, _, unpacked₂, nonnegative, value₂, above₂⟩ :=
    unpack_of_exact hb (shiftLeft_ne_zero (Nat.ne_of_gt (Nat.zero_lt_of_lt less)) _)
  cases s₁ <;> cases negative
  cases s₂ <;> cases nonnegative
  -- both significands at the lesser of the exponents
  generalize hx : m₁ <<< (e₁ - min e₁ e₂).toNat = x
  generalize hy : m₂ <<< (e₂ - min e₁ e₂).toNat = y
  have value_x : x <<< (min e₁ e₂ + 1074).toNat = n <<< unitBits := by
    rw [← hx, ← Nat.shiftLeft_add, ← value₁]
    congr 1
    omega
  have value_y : y <<< (min e₁ e₂ + 1074).toNat = k <<< unitBits := by
    rw [← hy, ← Nat.shiftLeft_add, ← value₂]
    congr 1
    omega
  have difference : (y - x) <<< (min e₁ e₂ + 1074).toNat = (k - n) <<< unitBits := by
    rw [Nat.shiftLeft_eq, Nat.sub_mul, ← Nat.shiftLeft_eq, ← Nat.shiftLeft_eq, value_x, value_y,
      Nat.shiftLeft_eq, Nat.shiftLeft_eq, Nat.shiftLeft_eq, Nat.sub_mul]
  have order : x < y := by
    rw [← shiftLeft_lt_iff, value_x, value_y, shiftLeft_lt_iff]
    exact less
  have rounded : UnpackedFloat.normalize .binary64 (-(x : Int) + y) (min e₁ e₂) .positive =
      round .binary64 .positive (y - x) (min e₁ e₂) := by
    have sign : compare (-(x : Int) + y) 0 = .gt := Int.compare_eq_gt.mpr (by omega)
    unfold UnpackedFloat.normalize
    rw [sign, show (-(x : Int) + y).toNat = y - x by omega]
  have sum : a + b = ofCode false (wholeCode (k - n)) := by
    show (⟨Float.Model.pack (a.toModel.unpack.add .binary64 b.toModel.unpack)⟩ : Float) = _
    rw [← pack_unpack (ofCode false (wholeCode (k - n))), unpack_wholeCode positive bound,
      ← round_whole positive bound .positive (by omega) difference, ← rounded, unpacked₁, unpacked₂,
      ← hx, ← hy]
    rfl
  rw [sum, exact_ofCode (wholeCode_lt positive bound), units_wholeCode positive bound]

end Binary64

end Calculator
