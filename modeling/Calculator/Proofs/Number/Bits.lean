import Calculator.Number.Binary64

/-!
# Bits of doubles

A bit pattern consists of a sign, an exponent and a mantissa; what each of them is worth is a quotient
or a remainder of the whole. Unpacking a double keeps them all (`Binary64.pack_unpack`). A double is
its sign and its code (`Binary64.ofCode_code`), the code of a double other than NaN is at most that of
infinity (`Binary64.code_le`), and a negation changes the sign alone (`Binary64.neg_ofCode`).
-/

namespace Calculator

namespace Binary64

open Float.Model (Format)
open Float.Model.UnpackedFloat

variable {b : BitVec (Format.numBits .binary64)}

/-! ### The parts of a pattern -/

theorem toNat_unpackSign (b : BitVec (Format.numBits .binary64)) :
    (unpackSign b).toNat = b.toNat / codeCount % 2 := by
  show (BitVec.cast _ (BitVec.extractLsb 63 63 b)).toNat = _
  simp [codeCount, BitVec.extractLsb, Nat.shiftRight_eq_div_pow]

theorem toNat_unpackExponent (b : BitVec (Format.numBits .binary64)) :
    (unpackExponent b).toNat = b.toNat / fractionCount % 0x800 := by
  simp [unpackExponent, fractionCount, BitVec.extractLsb, Nat.shiftRight_eq_div_pow]

theorem toNat_unpackMantissa (b : BitVec (Format.numBits .binary64)) :
    (unpackMantissa b).toNat = b.toNat % fractionCount := by
  simp [unpackMantissa, fractionCount, BitVec.extractLsb]

theorem toNat_append {n k : Nat} (high : BitVec n) (low : BitVec k) :
    (high ++ low).toNat = high.toNat <<< k + low.toNat := by
  rw [BitVec.toNat_append]
  exact (Nat.shiftLeft_add_eq_or_of_lt low.isLt high.toNat).symm

/-- A pattern is put together again from its parts. -/
theorem packComponents_eq {x : BitVec 11} {m : BitVec 52}
    (exponent : (unpackExponent b).toNat = x.toNat) (mantissa : (unpackMantissa b).toNat = m.toNat) :
    packComponents .binary64 (Sign.ofBitVec (unpackSign b)) x m = b := by
  have sign : ∀ s : BitVec 1, (Sign.ofBitVec s).toBitVec = s := by decide
  have below : b.toNat < 2 ^ 64 := b.isLt
  refine BitVec.eq_of_toNat_eq ?_
  unfold packComponents
  rw [sign, toNat_append, toNat_append, toNat_unpackSign, ← exponent, ← mantissa,
    toNat_unpackExponent, toNat_unpackMantissa]
  unfold fractionCount codeCount
  omega

/-! ### The forms of an unpacked double -/

theorem unpack_of_top (top : (unpackExponent b).toNat = 0x7FF) : unpack .binary64 b =
    if (unpackMantissa b).toNat = 0 then .infinity (Sign.ofBitVec (unpackSign b))
    else .notANumber := by
  have pattern : unpackExponent b = -1#_ := BitVec.eq_of_toNat_eq top
  unfold Float.Model.UnpackedFloat.unpack
  rw [if_pos pattern]
  by_cases none : unpackMantissa b = 0#_
  · rw [if_pos none, none]
    rfl
  · have some : (unpackMantissa b).toNat ≠ 0 := fun h => none (BitVec.eq_of_toNat_eq h)
    rw [if_neg none, if_neg some]

theorem unpack_of_zero (zero : (unpackExponent b).toNat = 0)
    (none : (unpackMantissa b).toNat = 0) :
    unpack .binary64 b = .zero (Sign.ofBitVec (unpackSign b)) := by
  have pattern : unpackExponent b = 0#_ := BitVec.eq_of_toNat_eq zero
  unfold Float.Model.UnpackedFloat.unpack
  rw [if_neg (by rw [pattern]; decide), if_pos pattern]
  exact dif_pos (BitVec.eq_of_toNat_eq none)

theorem unpack_of_subnormal (zero : (unpackExponent b).toNat = 0)
    (some : (unpackMantissa b).toNat ≠ 0) :
    unpack .binary64 b = .finite (Sign.ofBitVec (unpackSign b)) (unpackMantissa b).toNat (-1074)
      (Nat.pos_of_ne_zero some) := by
  have pattern : unpackExponent b = 0#_ := BitVec.eq_of_toNat_eq zero
  unfold Float.Model.UnpackedFloat.unpack
  rw [if_neg (by rw [pattern]; decide), if_pos pattern,
    dif_neg fun h => some (congrArg BitVec.toNat h)]
  dsimp only
  rw [zero]
  rfl

theorem unpack_of_normal (below : (unpackExponent b).toNat ≠ 0x7FF)
    (above : (unpackExponent b).toNat ≠ 0) :
    unpack .binary64 b = .finite (Sign.ofBitVec (unpackSign b))
      (fractionCount + (unpackMantissa b).toNat) ((unpackExponent b).toNat - 1075)
      (Nat.add_pos_left (by decide) _) := by
  unfold Float.Model.UnpackedFloat.unpack
  rw [if_neg fun h => below (congrArg BitVec.toNat h),
    if_neg fun h => above (congrArg BitVec.toNat h)]
  exact (finite.injEq ..).mpr ⟨rfl, toNat_append _ _, rfl⟩

/-! ### Packing -/

theorem pack_subnormal {m : Nat} (small : m < fractionCount) (s : Sign) (pos : 0 < m) :
    pack .binary64 (.finite s m (-1074) pos) =
      packComponents .binary64 s 0#11 (BitVec.ofNat 52 m) := by
  have bits : m.log2 + 1 ≠ 53 := by
    have := (Nat.log2_lt (Nat.ne_of_gt pos)).mpr (show m < 2 ^ 52 from small)
    omega
  unfold pack
  rw [if_neg (by decide)]
  exact if_neg bits

theorem pack_normal {x m : Nat} (below : x < 0x7FF) (small : m < fractionCount) (s : Sign)
    (pos : 0 < fractionCount + m) :
    pack .binary64 (.finite s (fractionCount + m) (x - 1075) pos) =
      packComponents .binary64 s (BitVec.ofNat 11 x) (BitVec.ofNat 52 m) := by
  have bits : (fractionCount + m).log2 + 1 = 53 := by
    unfold fractionCount at small ⊢
    have := (Nat.log2_eq_iff (k := 52) (n := 0x0010000000000000 + m) (by omega)).mpr (by omega)
    omega
  have biased : ((x : Int) - 1075 + Format.exponentBias .binary64 + (52 : Nat)).toNat = x := by
    have bias : Format.exponentBias .binary64 = 1023 := rfl
    omega
  have mantissa : BitVec.ofNat 52 (fractionCount + m) = BitVec.ofNat 52 m :=
    BitVec.eq_of_toNat_eq (by simp [fractionCount])
  unfold pack
  dsimp only
  rw [biased, if_neg (by omega), mantissa]
  exact if_pos bits

-- The library has this for every format, but only the whole of Mathlib brings it in.
/-- Only the patterns that are no number are not told apart when they are unpacked, and one of them
is valid. -/
theorem pack_unpack_bits (valid : Format.Valid .binary64 b) :
    pack .binary64 (unpack .binary64 b) = b := by
  by_cases top : (unpackExponent b).toNat = 0x7FF
  · rw [unpack_of_top top]
    split
    case isTrue none => exact packComponents_eq top none
    case isFalse some =>
      exact (valid.eq_packedNaN (BitVec.eq_of_toNat_eq top)
        fun none => some (congrArg BitVec.toNat none)).symm
  by_cases zero : (unpackExponent b).toNat = 0
  · by_cases none : (unpackMantissa b).toNat = 0
    · rw [unpack_of_zero zero none]
      exact packComponents_eq zero none
    · rw [unpack_of_subnormal zero none, pack_subnormal (unpackMantissa b).isLt,
        BitVec.ofNat_toNat, BitVec.setWidth_eq]
      exact packComponents_eq zero rfl
  · have below : (unpackExponent b).toNat < 0x800 := (unpackExponent b).isLt
    rw [unpack_of_normal top zero, pack_normal (by omega) (unpackMantissa b).isLt,
      BitVec.ofNat_toNat, BitVec.ofNat_toNat, BitVec.setWidth_eq, BitVec.setWidth_eq]
    exact packComponents_eq rfl rfl

theorem pack_unpack (v : Float) : (⟨Float.Model.pack v.toModel.unpack⟩ : Float) = v := by
  obtain ⟨⟨bits, valid⟩⟩ := v
  congr 1
  show (⟨UInt64.ofBitVec (pack .binary64 (unpack .binary64 bits.toBitVec)), _⟩ : Float.Model) = _
  congr 1
  exact congrArg UInt64.ofBitVec (pack_unpack_bits valid)

/-! ### Sign and code -/

theorem ofCode_code (v : Float) : ofCode (isNegative v) (code v) = v := by
  have below := v.toBits.toNat_lt
  unfold ofCode
  conv => rhs; rw [← pack_unpack v]
  show _ = Float.ofBits v.toBits
  congr 1
  apply UInt64.toNat_inj.mp
  rw [UInt64.toNat_ofNat']
  unfold isNegative code codeCount
  split
  case isTrue negative =>
    have := of_decide_eq_true negative
    omega
  case isFalse other =>
    have : ¬ 0x8000000000000000 ≤ v.toBits.toNat := fun h => other (decide_eq_true h)
    omega

section Parts

variable (v : Float)

def bits : BitVec (Format.numBits .binary64) :=
  v.toBits.toBitVec

theorem exponent_eq : (unpackExponent (bits v)).toNat = code v / fractionCount := by
  rw [toNat_unpackExponent]
  show v.toBits.toNat / fractionCount % 0x800 = v.toBits.toNat % codeCount / fractionCount
  unfold fractionCount codeCount
  omega

theorem mantissa_eq : (unpackMantissa (bits v)).toNat = code v % fractionCount := by
  rw [toNat_unpackMantissa]
  show v.toBits.toNat % fractionCount = v.toBits.toNat % codeCount % fractionCount
  unfold fractionCount codeCount
  omega

end Parts

theorem isNaN_of_code {v : Float} (h : infinityCode < code v) : v.isNaN = true := by
  have below : code v < codeCount := Nat.mod_lt _ (by decide)
  unfold infinityCode at h
  unfold codeCount at below
  have top : (unpackExponent (bits v)).toNat = 0x7FF := by
    rw [exponent_eq]
    unfold fractionCount
    omega
  have some : (unpackMantissa (bits v)).toNat ≠ 0 := by
    rw [mantissa_eq]
    unfold fractionCount
    omega
  show (unpack .binary64 (bits v)).isNaN = true
  rw [unpack_of_top top, if_neg some]
  rfl

theorem code_le {v : Float} (h : v.isNaN = false) : code v ≤ infinityCode := by
  rw [← Nat.not_lt]
  intro above
  exact absurd (h.symm.trans (isNaN_of_code above)) Bool.false_ne_true

/-! ### Negation -/

theorem unpack_neg {b' : BitVec (Format.numBits .binary64)}
    (sign : Sign.ofBitVec (unpackSign b') = -Sign.ofBitVec (unpackSign b))
    (exponent : unpackExponent b' = unpackExponent b)
    (mantissa : unpackMantissa b' = unpackMantissa b) :
    unpack .binary64 b' = (unpack .binary64 b).neg := by
  by_cases top : (unpackExponent b).toNat = 0x7FF
  · rw [unpack_of_top top, unpack_of_top (exponent ▸ top), mantissa, sign]
    split <;> rfl
  by_cases zero : (unpackExponent b).toNat = 0
  · by_cases none : (unpackMantissa b).toNat = 0
    · rw [unpack_of_zero zero none, unpack_of_zero (exponent ▸ zero) (mantissa ▸ none), sign]
      rfl
    · rw [unpack_of_subnormal zero none,
        unpack_of_subnormal (exponent ▸ zero) (mantissa.symm ▸ none)]
      exact (finite.injEq ..).mpr ⟨sign, congrArg BitVec.toNat mantissa, rfl⟩
  · rw [unpack_of_normal top zero, unpack_of_normal (exponent ▸ top) (exponent ▸ zero), mantissa,
      exponent, sign]
    rfl

/-- The bits of a sign and a code. -/
def pattern (negative : Bool) (code : Nat) : BitVec (Format.numBits .binary64) :=
  BitVec.ofNat _ (if negative then codeCount + code else code)

theorem ofCode_eq (negative : Bool) (code : Nat) :
    ofCode negative code = ⟨Float.Model.pack (unpack .binary64 (pattern negative code))⟩ := rfl

section Pattern

variable {c : Nat} (h : c ≤ infinityCode)

include h

theorem toNat_pattern (negative : Bool) :
    (pattern negative c).toNat = if negative then codeCount + c else c := by
  unfold infinityCode at h
  unfold pattern codeCount
  rw [BitVec.toNat_ofNat]
  show _ % 2 ^ 64 = _
  split <;> omega

theorem valid_pattern (negative : Bool) : Format.Valid .binary64 (pattern negative c) where
  eq_packedNaN top other := by
    have exponent := toNat_unpackExponent (pattern negative c)
    have mantissa := toNat_unpackMantissa (pattern negative c)
    rw [toNat_pattern h] at exponent mantissa
    rw [top] at exponent
    refine absurd (BitVec.eq_of_toNat_eq ?_) other
    rw [mantissa]
    unfold infinityCode at h
    cases negative with
    | false =>
      change 0x7FF = c / fractionCount % 0x800 at exponent
      show c % fractionCount = 0
      unfold fractionCount at exponent ⊢
      omega
    | true =>
      change 0x7FF = (codeCount + c) / fractionCount % 0x800 at exponent
      show (codeCount + c) % fractionCount = 0
      unfold codeCount fractionCount at exponent ⊢
      omega

theorem toBits_ofCode (negative : Bool) :
    (ofCode negative c).toBits.toNat = if negative then codeCount + c else c := by
  rw [← toNat_pattern h, ofCode_eq]
  show (pack .binary64 (unpack .binary64 (pattern negative c))).toNat = _
  rw [pack_unpack_bits (valid_pattern h negative)]

theorem code_ofCode (negative : Bool) : code (ofCode negative c) = c := by
  unfold code
  rw [toBits_ofCode h]
  unfold infinityCode at h
  unfold codeCount
  split <;> omega

theorem isNegative_ofCode (negative : Bool) : isNegative (ofCode negative c) = negative := by
  unfold isNegative
  rw [toBits_ofCode h]
  unfold infinityCode at h
  unfold codeCount
  cases negative with
  | false => exact decide_eq_false (by simp only [Bool.false_eq_true, if_false]; omega)
  | true => exact decide_eq_true (Nat.le_add_right _ _)

theorem unpack_pattern_true :
    unpack .binary64 (pattern true c) = (unpack .binary64 (pattern false c)).neg := by
  have bound := h
  unfold infinityCode at bound
  have negative : unpackSign (pattern true c) = 1#1 := BitVec.eq_of_toNat_eq <| by
    rw [toNat_unpackSign, toNat_pattern h]
    show (codeCount + c) / codeCount % 2 = 1
    unfold codeCount
    omega
  have positive : unpackSign (pattern false c) = 0#1 := BitVec.eq_of_toNat_eq <| by
    rw [toNat_unpackSign, toNat_pattern h]
    show c / codeCount % 2 = 0
    unfold codeCount
    omega
  refine unpack_neg ?_ (BitVec.eq_of_toNat_eq ?_) (BitVec.eq_of_toNat_eq ?_)
  · rw [negative, positive]
    rfl
  · rw [toNat_unpackExponent, toNat_unpackExponent, toNat_pattern h, toNat_pattern h]
    show (codeCount + c) / fractionCount % 0x800 = c / fractionCount % 0x800
    unfold codeCount fractionCount
    omega
  · rw [toNat_unpackMantissa, toNat_unpackMantissa, toNat_pattern h, toNat_pattern h]
    show (codeCount + c) % fractionCount = c % fractionCount
    unfold codeCount fractionCount
    omega

theorem neg_ofCode : -ofCode false c = ofCode true c := by
  rw [ofCode_eq, ofCode_eq, unpack_pattern_true h]
  show (⟨Float.Model.pack (unpack .binary64
    (pack .binary64 (unpack .binary64 (pattern false c)))).neg⟩ : Float) = _
  rw [pack_unpack_bits (valid_pattern h false)]

end Pattern

theorem exact_ofCode {c : Nat} (h : c < infinityCode) (negative : Bool) :
    exact (ofCode negative c) = .finite negative (units c) := by
  unfold exact
  rw [code_ofCode (Nat.le_of_lt h), isNegative_ofCode (Nat.le_of_lt h), if_pos h]

end Binary64

end Calculator
