import Calculator.Proofs.Number.Bits

/-!
# Exact values and unpacked doubles

The hardware operations are given on unpacked doubles. `Exact.ofUnpacked` is the exact value of one,
and the exact value of a double is that of its unpacked form (`Binary64.exact_eq`). From it come the
sign test (`Binary64.lt_zero_iff`) and the conversion to an unsigned word
(`Binary64.toNat_toUInt32`).
-/

namespace Calculator

open Float.Model (Format UnpackedFloat)
open Float.Model.UnpackedFloat

def isNegativeSign : Sign → Bool
  | .negative => true
  | .positive => false

def Exact.ofUnpacked : UnpackedFloat → Exact
  | .notANumber => .nan
  | .infinity s => .infinite (isNegativeSign s)
  | .zero s => .finite (isNegativeSign s) 0
  | .finite s m e _ => .finite (isNegativeSign s) (m <<< (e + 1074).toNat)

namespace Binary64

theorem isNegativeSign_ofBitVec (b : BitVec 1) :
    isNegativeSign (Sign.ofBitVec b) = decide (b.toNat = 1) := by
  revert b
  decide

section Parts

variable (v : Float)

theorem unpack_eq : v.toModel.unpack = unpack .binary64 (bits v) := rfl

theorem isNegative_eq : isNegativeSign (Sign.ofBitVec (unpackSign (bits v))) = isNegative v := by
  have below := v.toBits.toNat_lt
  rw [isNegativeSign_ofBitVec, toNat_unpackSign]
  show decide (v.toBits.toNat / codeCount % 2 = 1) = decide (codeCount ≤ v.toBits.toNat)
  unfold codeCount
  exact decide_eq_decide.mpr (by omega)

/-- The exact value by the exponent and the mantissa. -/
theorem exact_of_parts {x y : Nat} (exponent : code v / fractionCount = x)
    (mantissa : code v % fractionCount = y) (below : x < 0x800) : exact v =
      if x = 0x7FF then (if y = 0 then .infinite (isNegative v) else .nan)
      else .finite (isNegative v) (if x = 0 then y else (fractionCount + y) <<< (x - 1)) := by
  have parts := Nat.div_add_mod (code v) fractionCount
  have fraction := Nat.mod_lt (code v) (show 0 < fractionCount by decide)
  rw [mantissa] at fraction
  unfold exact units
  rw [exponent, mantissa] at parts ⊢
  unfold infinityCode
  unfold fractionCount at *
  by_cases top : x = 0x7FF
  · rw [if_neg (by omega), if_pos top]
    by_cases none : y = 0
    · rw [if_pos (by omega), if_pos none]
    · rw [if_neg (by omega), if_neg none]
  · rw [if_pos (by omega), if_neg top]

theorem exact_eq : exact v = .ofUnpacked v.toModel.unpack := by
  rw [exact_of_parts v (exponent_eq v).symm (mantissa_eq v).symm (unpackExponent (bits v)).isLt,
    ← isNegative_eq v, unpack_eq]
  by_cases top : (unpackExponent (bits v)).toNat = 0x7FF
  · rw [unpack_of_top top, if_pos top]
    split <;> rfl
  rw [if_neg top]
  by_cases zero : (unpackExponent (bits v)).toNat = 0
  · rw [if_pos zero]
    by_cases none : (unpackMantissa (bits v)).toNat = 0
    · rw [unpack_of_zero zero none, none]
      rfl
    · rw [unpack_of_subnormal zero none]
      rfl
  · have place : (((unpackExponent (bits v)).toNat : Int) - 1075 + 1074).toNat =
        (unpackExponent (bits v)).toNat - 1 := by omega
    rw [unpack_of_normal top zero, if_neg zero, ← place]
    rfl

theorem le_of_unpack {s : Sign} {m : Nat} {e : Int} {pos : 0 < m}
    (h : v.toModel.unpack = .finite s m e pos) : -1074 ≤ e := by
  rw [unpack_eq] at h
  by_cases top : (unpackExponent (bits v)).toNat = 0x7FF
  · rw [unpack_of_top top] at h
    by_cases none : (unpackMantissa (bits v)).toNat = 0
    · rw [if_pos none] at h
      cases h
    · rw [if_neg none] at h
      cases h
  by_cases zero : (unpackExponent (bits v)).toNat = 0
  · by_cases none : (unpackMantissa (bits v)).toNat = 0
    · rw [unpack_of_zero zero none] at h
      cases h
    · rw [unpack_of_subnormal zero none] at h
      cases h
      exact Int.le_refl _
  · rw [unpack_of_normal top zero] at h
    cases h
    omega

end Parts

variable {v : Float}

theorem isFinite_iff : v.isFinite ↔ ∃ negative u, exact v = .finite negative u := by
  rw [exact_eq]
  show v.toModel.unpack.isFinite ↔ _
  cases v.toModel.unpack with
  | notANumber | infinity s =>
    refine iff_of_false Bool.false_ne_true ?_
    rintro ⟨negative, u, h⟩
    cases h
  | zero s | finite s m e pos => exact iff_of_true rfl ⟨_, _, rfl⟩

section Finite

variable {negative : Bool} {u : Nat} (h : exact v = .finite negative u)

include h

theorem lt_zero_iff : v < 0.0 ↔ negative ∧ u ≠ 0 := by
  rw [exact_eq] at h
  show decide (v.toModel.unpack.lt (.zero .positive)) ↔ _
  cases unpacked : v.toModel.unpack with
  | notANumber | infinity s =>
    rw [unpacked] at h
    cases h
  | zero s =>
    rw [unpacked] at h
    cases h
    exact iff_of_false Bool.false_ne_true fun h => h.2 rfl
  | finite s m e pos =>
    rw [unpacked] at h
    cases h
    have nonzero : m <<< (e + 1074).toNat ≠ 0 := by
      rw [Nat.shiftLeft_eq]
      exact Nat.mul_ne_zero (Nat.ne_of_gt pos) (Nat.ne_of_gt (Nat.two_pow_pos _))
    cases s with
    | negative => exact iff_of_true rfl ⟨rfl, nonzero⟩
    | positive => exact iff_of_false Bool.false_ne_true fun h => Bool.false_ne_true h.1

end Finite

/-! ### Conversion to an integer -/

theorem mantissa_shiftRight (em : ExtendedMantissa) (k : Nat) :
    (em >>> k).mantissa = em.mantissa >>> k := by
  induction k with
  | zero => rfl
  | succ k ih =>
    show (em >>> k).mantissa / 2 = _
    rw [ih, Nat.shiftRight_succ]

theorem shiftLeft_shiftRight_add (m j k : Nat) : m <<< j >>> (j + k) = m >>> k := by
  rw [Nat.shiftRight_add, Nat.shiftLeft_shiftRight]

theorem roundToInt_eq (s : Sign) (m : Nat) {e : Int} (above : -1074 ≤ e) :
    roundToInt s m e = s.apply ↑(m <<< (e + 1074).toNat >>> 1074) := by
  have place : (0 - (e - (e - 0).toNat)).toNat = (-e).toNat := by omega
  unfold roundToInt decreaseExponent shiftToExponent
  dsimp only
  rw [place, mantissa_shiftRight]
  show s.apply ↑(m <<< (e - 0).toNat >>> (-e).toNat) = _
  congr 2
  rcases Int.le_total 0 e with whole | fraction
  · rw [show (-e).toNat = 0 by omega, show (e + 1074).toNat = (e - 0).toNat + 1074 by omega,
      Nat.shiftLeft_add, Nat.shiftLeft_shiftRight, Nat.shiftRight_zero]
  · rw [show (e - 0).toNat = 0 by omega, Nat.shiftLeft_zero,
      ← shiftLeft_shiftRight_add m (e + 1074).toNat (-e).toNat,
      show (e + 1074).toNat + (-e).toNat = 1074 by omega]

theorem toInt_eq (h : v.isFinite) (least greatest : Int) :
    v.toModel.unpack.toInt least greatest = (exact v).truncate := by
  rw [exact_eq]
  change v.toModel.unpack.isFinite at h
  cases unpacked : v.toModel.unpack with
  | notANumber | infinity s =>
    rw [unpacked] at h
    cases h
  | zero s => cases s <;> rfl
  | finite s m e pos =>
    refine (roundToInt_eq s m (le_of_unpack v unpacked)).trans ?_
    cases s <;> rfl

theorem toNat_toUInt32 (h : v.isFinite) (bound : (exact v).truncate < 0x100000000) :
    v.toUInt32.toNat = (exact v).truncate.toNat := by
  show (UInt32.ofNatClamp (v.toModel.unpack.toInt _ _).toNat).toNat = _
  have below : (exact v).truncate.toNat < UInt32.size := by
    show _ < 0x100000000
    omega
  rw [toInt_eq h, UInt32.ofNatClamp, dif_pos below]
  rfl

end Binary64

end Calculator
